/-
GridFlux/ManifestText.lean

The text layer the three manifest files share: `key=value` lines ending in
`manifest_body_crc32c=<eight hex digits>`, numbers in decimal, byte strings in
hexadecimal.  Each manifest source file carries its own copy of these helpers;
the copies differ in their error texts only, which are parameters here.

Main results: every helper reads back what its partner writes, a text of
well-formed entries is read back entry by entry (`readEntries_lines`), and
the three things an edit inside one entry can lead to (`readEntries_edit`).
-/
import GridFlux.Text
import GridFlux.Checksum

namespace GridFlux

open TextCodec

def newline : UInt8 := 10
def equalsSign : UInt8 := 61
def comma : UInt8 := 44
def colon : UInt8 := 58
def dash : UInt8 := 45

/-! ### Numbers and byte strings -/

/-- `parseU64`: `std::from_chars` over the whole text. -/
def parseU64 (text name : Bytes) : Except Status Nat :=
  if text = [] then .error (.invalidArgument (name ++ ascii " must not be empty"))
  else if text.all isDigit ∧ decimalValue text < 2 ^ 64 then .ok (decimalValue text)
  else .error (.invalidArgument (name ++ ascii " must be a decimal integer"))

/-- `toHex`. -/
def toHex (text : Bytes) : Bytes :=
  text.flatMap fun value => [hexDigit (value.toNat / 16), hexDigit (value.toNat % 16)]

/-- `hex32`. -/
def hex32 (value : BitVec 32) : Bytes := hexDigits 8 value.toNat

/-- `parseHex32`. -/
def parseHex32 (text name : Bytes) : Except Status (BitVec 32) :=
  if text.length ≠ 8 then .error (.invalidArgument (name ++ ascii " must be 8 hex digits"))
  else if text.all isHexDigit then .ok (BitVec.ofNat 32 (hexNumber text))
  else .error (.invalidArgument (name ++ ascii " contains invalid hex"))

/-- The digit loop of `fromHexString`. -/
def fromHexPairs : Bytes → Except Status Bytes
  | high :: low :: rest =>
      if isHexDigit high ∧ isHexDigit low then do
        let decoded ← fromHexPairs rest
        return UInt8.ofNat (16 * hexValue high + hexValue low) :: decoded
      else .error (.invalidArgument (ascii "hex string contains invalid digit"))
  | _ => .ok []

/-- `fromHexString`. -/
def fromHexString (text : Bytes) : Except Status Bytes :=
  if text.length % 2 ≠ 0 then
    .error (.invalidArgument (ascii "hex string must have even length"))
  else fromHexPairs text

theorem parseU64_decimal {n : Nat} (h : n < 2 ^ 64) (name : Bytes) :
    parseU64 (decimal n) name = .ok n := by
  have hall : (decimal n).all isDigit = true :=
    List.all_eq_true.mpr fun b hb => isDigit_of_mem_decimal hb
  rw [parseU64, if_neg (decimal_ne_nil n), decimalValue_decimal, if_pos ⟨hall, h⟩]

theorem parseU64_lt {text name : Bytes} {n : Nat} (h : parseU64 text name = .ok n) :
    n < 2 ^ 64 := by
  simp only [parseU64] at h
  split at h
  · cases h
  · split at h
    · rename_i hc
      obtain rfl := Except.ok.inj h
      exact hc.2
    · cases h

theorem parseHex32_hex32 (value : BitVec 32) (name : Bytes) :
    parseHex32 (hex32 value) name = .ok value := by
  have hlen : (hex32 value).length = 8 := length_hexDigits 8 _
  have hall : (hex32 value).all isHexDigit = true := by
    refine List.all_eq_true.mpr fun b hb => ?_
    obtain ⟨d, hd, rfl⟩ := mem_hexDigits hb
    exact isHexDigit_hexDigit hd
  have hval : hexNumber (hex32 value) = value.toNat :=
    hexNumber_hexDigits (k := 8) value.isLt
  simp [parseHex32, hlen, hall, hval]

theorem length_toHex (text : Bytes) : (toHex text).length = 2 * text.length := by
  induction text with
  | nil => rfl
  | cons b text ih =>
      simp only [toHex, List.flatMap_cons, List.length_append] at *
      simp only [ih, List.length_cons, List.length_nil]
      omega

theorem fromHexPairs_toHex (text : Bytes) : fromHexPairs (toHex text) = .ok text := by
  induction text with
  | nil => rfl
  | cons b text ih =>
      have hb : b.toNat < 256 := b.toNat_lt
      have hhigh : b.toNat / 16 < 16 := by omega
      have hlow : b.toNat % 16 < 16 := Nat.mod_lt _ (by decide)
      have hback : UInt8.ofNat (16 * (b.toNat / 16) + b.toNat % 16) = b := by
        rw [Nat.div_add_mod]
        exact UInt8.ofNat_toNat
      simp only [toHex, List.flatMap_cons] at ih ⊢
      simp only [List.cons_append, List.nil_append, fromHexPairs, isHexDigit_hexDigit hhigh,
        isHexDigit_hexDigit hlow, and_self, if_true, ih, ok_bind, hexValue_hexDigit hhigh,
        hexValue_hexDigit hlow, hback]
      rfl

theorem fromHexString_toHex (text : Bytes) : fromHexString (toHex text) = .ok text := by
  have hlen : (toHex text).length % 2 = 0 := by
    rw [length_toHex]
    omega
  simp [fromHexString, hlen, fromHexPairs_toHex]

/-! ### Which bytes the numerals use -/

theorem notMem_of_forall {text : Bytes} {p : UInt8 → Bool} {x : UInt8}
    (h : ∀ b ∈ text, p b = true) (hx : p x = false) : x ∉ text := by
  intro hmem
  rw [h x hmem] at hx
  cases hx

theorem notMem_decimal {n : Nat} {x : UInt8} (hx : isDigit x = false) : x ∉ decimal n :=
  notMem_of_forall (fun _ => isDigit_of_mem_decimal) hx

theorem notMem_toHex {text : Bytes} {x : UInt8} (hx : isHexDigit x = false) :
    x ∉ toHex text := by
  refine notMem_of_forall (fun b hb => ?_) hx
  simp only [toHex, List.mem_flatMap, List.mem_cons, List.not_mem_nil, or_false] at hb
  obtain ⟨v, -, rfl | rfl⟩ := hb
  · have := v.toNat_lt
    exact isHexDigit_hexDigit (by omega)
  · exact isHexDigit_hexDigit (Nat.mod_lt _ (by decide))

theorem notMem_hex32 {value : BitVec 32} {x : UInt8} (hx : isHexDigit x = false) :
    x ∉ hex32 value := by
  refine notMem_of_forall (fun b hb => ?_) hx
  obtain ⟨d, hd, rfl⟩ := mem_hexDigits hb
  exact isHexDigit_hexDigit hd

/-! ### `key=value` lines -/

/-- One `key=value` line, without its line feed. -/
def entryLine (entry : Bytes × Bytes) : Bytes := entry.1 ++ equalsSign :: entry.2

/-- The key of the last line, which carries the checksum of all others. -/
def checksumKey : Bytes := ascii "manifest_body_crc32c"

/-- What the reading loop has gathered: the map, the text under the checksum
and the checksum's own digits. -/
structure ManifestLines where
  values : List (Bytes × Bytes)
  bodyText : Bytes
  expectedBodyChecksum : Bytes
deriving DecidableEq, Repr

/-- `values[key]`. -/
def ManifestLines.value (read : ManifestLines) (key : Bytes) : Bytes :=
  (read.values.lookup key).getD []

/-- `requireKey`. -/
def ManifestLines.requireKey (read : ManifestLines) (missingKey key : Bytes) :
    Except Status Unit :=
  require ((read.values.lookup key).isSome) (.invalidArgument (missingKey ++ key))

/-- Record one entry; all but the checksum's own go under the checksum. -/
def ManifestLines.extend (read : ManifestLines) (entry : Bytes × Bytes) : ManifestLines :=
  if entry.1 = checksumKey then
    ⟨read.values ++ [entry], read.bodyText, entry.2⟩
  else
    ⟨read.values ++ [entry], read.bodyText ++ entryLine entry ++ [newline],
      read.expectedBodyChecksum⟩

/-- One round of the `getline` loop of the transfer and download parsers. -/
def readLine (missingEquals duplicateKey : Bytes) (read : ManifestLines) (line : Bytes) :
    Except Status ManifestLines :=
  if line = [] then .ok read
  else
    match splitFirst equalsSign line with
    | none => .error (.invalidArgument missingEquals)
    | some (key, value) =>
        if key = [] ∨ (read.values.lookup key).isSome then
          .error (.invalidArgument duplicateKey)
        else .ok (read.extend (key, value))

/-- The whole `getline` loop. -/
def readLines (missingEquals duplicateKey text : Bytes) : Except Status ManifestLines :=
  (pieces newline text).foldlM (readLine missingEquals duplicateKey) ⟨[], [], []⟩

/-! ### What the loop accepts -/

/-- Entries that can be told apart: non-empty keys without an equals sign. -/
def KeysOk (entries : List (Bytes × Bytes)) : Prop :=
  ∀ e ∈ entries, e.1 ≠ [] ∧ equalsSign ∉ e.1

theorem entryLine_ne_nil (e : Bytes × Bytes) : entryLine e ≠ [] := by
  simp [entryLine]

theorem splitFirst_entryLine {e : Bytes × Bytes} (h : equalsSign ∉ e.1) :
    splitFirst equalsSign (entryLine e) = some e :=
  splitFirst_append equalsSign h e.2

/-- Distinct lists of readable entries give distinct lists of lines. -/
theorem entryLine_injective {es es' : List (Bytes × Bytes)} (h : KeysOk es) (h' : KeysOk es')
    (heq : es.map entryLine = es'.map entryLine) : es = es' := by
  have hread : ∀ {fs : List (Bytes × Bytes)}, KeysOk fs →
      (fs.map entryLine).map (splitFirst equalsSign) = fs.map some := by
    intro fs hfs
    rw [List.map_map]
    exact List.map_congr_left fun e he => splitFirst_entryLine (hfs e he).2
  have hsome : es.map some = es'.map some := by rw [← hread h, ← hread h', heq]
  exact List.map_injective_iff.mpr (Option.some_injective _) hsome

theorem lookup_isSome_iff {values : List (Bytes × Bytes)} {key : Bytes} :
    (values.lookup key).isSome ↔ key ∈ values.map Prod.fst := by
  induction values with
  | nil => simp
  | cons e values ih =>
      rw [List.lookup_cons, List.map_cons, List.mem_cons]
      rcases h : key == e.1 with - | -
      · simp [beq_eq_false_iff_ne.mp h, ih]
      · simp [beq_iff_eq.mp h]

theorem requireKey_eq_ok {read : ManifestLines} {missingKey key : Bytes} {u : Unit} :
    read.requireKey missingKey key = .ok u ↔ key ∈ read.values.map Prod.fst := by
  rw [ManifestLines.requireKey, require_eq_ok, lookup_isSome_iff]

@[simp] theorem extend_values (read : ManifestLines) (e : Bytes × Bytes) :
    (read.extend e).values = read.values ++ [e] := by
  by_cases h : e.1 = checksumKey
  · simp [ManifestLines.extend, h]
  · simp [ManifestLines.extend, h]

/-- Entries other than the checksum's go under the checksum line by line. -/
theorem foldl_extend_body {es : List (Bytes × Bytes)} (h : ∀ e ∈ es, e.1 ≠ checksumKey)
    (read : ManifestLines) :
    es.foldl ManifestLines.extend read =
      ⟨read.values ++ es, read.bodyText ++ lines newline (es.map entryLine),
        read.expectedBodyChecksum⟩ := by
  induction es generalizing read with
  | nil => simp
  | cons e es ih =>
      rw [List.foldl_cons, ih fun e' he' => h e' (by simp [he'])]
      simp [ManifestLines.extend, h e (by simp)]

/-- One line is accepted exactly when it is a readable entry with a new key. -/
theorem readLine_eq_ok {missingEquals duplicateKey line : Bytes} (hline : line ≠ [])
    {read read' : ManifestLines} :
    readLine missingEquals duplicateKey read line = .ok read' ↔
      ∃ e : Bytes × Bytes, line = entryLine e ∧ e.1 ≠ [] ∧ equalsSign ∉ e.1 ∧
        e.1 ∉ read.values.map Prod.fst ∧ read' = read.extend e := by
  rw [readLine, if_neg hline]
  constructor
  · intro h
    rcases hsplit : splitFirst equalsSign line with - | ⟨key, value⟩
    · simp [hsplit] at h
    · obtain ⟨rfl, hkey⟩ := splitFirst_eq_some.mp hsplit
      simp only [hsplit] at h
      split at h
      · cases h
      · rename_i hfresh
        rw [lookup_isSome_iff, not_or] at hfresh
        exact ⟨(key, value), rfl, hfresh.1, hkey, hfresh.2, (Except.ok.inj h).symm⟩
  · rintro ⟨e, rfl, hne, hkey, hnew, rfl⟩
    rw [splitFirst_entryLine hkey]
    have hfresh : ¬(e.1 = [] ∨ (read.values.lookup e.1).isSome = true) := by
      rw [lookup_isSome_iff, not_or]
      exact ⟨hne, hnew⟩
    simp only [hfresh, if_false]

/-- **The reading loop, characterised**: it succeeds exactly when every line is
a readable entry and no key comes twice, and it has then gathered the entries
in order. -/
theorem foldlM_readLine_eq_ok {missingEquals duplicateKey : Bytes} {ls : List Bytes}
    (hls : ∀ l ∈ ls, l ≠ []) {read read' : ManifestLines} :
    ls.foldlM (readLine missingEquals duplicateKey) read = .ok read' ↔
      ∃ es : List (Bytes × Bytes), ls = es.map entryLine ∧ KeysOk es ∧
        (es.map Prod.fst).Nodup ∧ (∀ e ∈ es, e.1 ∉ read.values.map Prod.fst) ∧
        read' = es.foldl ManifestLines.extend read := by
  induction ls generalizing read with
  | nil =>
      constructor
      · intro h
        obtain rfl := Except.ok.inj h
        exact ⟨[], rfl, by simp [KeysOk], by simp, by simp, rfl⟩
      · rintro ⟨es, hes, -, -, -, rfl⟩
        obtain rfl := List.map_eq_nil_iff.mp hes.symm
        rfl
  | cons l ls ih =>
      have ih' := fun r => @ih (fun l' hl' => hls l' (by simp [hl'])) r
      rw [List.foldlM_cons, bind_eq_ok]
      constructor
      · rintro ⟨mid, hstep, hrest⟩
        obtain ⟨e, rfl, hne, hkey, hnew, rfl⟩ := (readLine_eq_ok (hls l (by simp))).mp hstep
        obtain ⟨es, rfl, hok, hnodup, hnew', rfl⟩ := (ih' _).mp hrest
        simp only [extend_values, List.map_append, List.map_cons, List.map_nil, List.mem_append,
          List.mem_singleton, not_or] at hnew'
        refine ⟨e :: es, rfl, ?_, List.nodup_cons.mpr ⟨?_, hnodup⟩, ?_, rfl⟩
        · exact List.forall_mem_cons.mpr ⟨⟨hne, hkey⟩, hok⟩
        · intro hmem
          obtain ⟨e', he', heq⟩ := List.mem_map.mp hmem
          exact (hnew' e' he').2 heq
        · exact List.forall_mem_cons.mpr ⟨hnew, fun e' he' => (hnew' e' he').1⟩
      · rintro ⟨es, hes, hok, hnodup, hnew, rfl⟩
        rcases es with - | ⟨e, es⟩
        · simp at hes
        rw [List.map_cons, List.cons.injEq] at hes
        obtain ⟨rfl, rfl⟩ := hes
        obtain ⟨⟨hne, hkey⟩, hok⟩ := List.forall_mem_cons.mp hok
        obtain ⟨hnewe, hnew⟩ := List.forall_mem_cons.mp hnew
        rw [List.map_cons, List.nodup_cons] at hnodup
        refine ⟨read.extend e,
          (readLine_eq_ok (entryLine_ne_nil e)).mpr ⟨e, rfl, hne, hkey, hnewe, rfl⟩,
          (ih' _).mpr ⟨es, rfl, hok, hnodup.2, fun e' he' => ?_, rfl⟩⟩
        simp only [extend_values, List.map_append, List.map_cons, List.map_nil, List.mem_append,
          List.mem_singleton, not_or]
        exact ⟨hnew e' he', fun heq => hnodup.1 (List.mem_map.mpr ⟨e', he', heq⟩)⟩

/-! ### A checksummed text and its edits -/

/-- The entries of a manifest body: readable, pairwise distinct keys, none of
them the checksum's, and no line feed inside. -/
structure BodyOk (entries : List (Bytes × Bytes)) : Prop where
  keys : KeysOk entries
  nodup : (entries.map Prod.fst).Nodup
  notChecksum : ∀ e ∈ entries, e.1 ≠ checksumKey
  oneLine : ∀ e ∈ entries, newline ∉ entryLine e

/-- The text of the entries followed by the checksum line. -/
def checksummedText (body digits : Bytes) : Bytes :=
  body ++ entryLine (checksumKey, digits) ++ [newline]

/-- The body text of a list of entries. -/
def bodyOf (entries : List (Bytes × Bytes)) : Bytes :=
  lines newline (entries.map entryLine)

theorem checksummedText_bodyOf (entries : List (Bytes × Bytes)) (digits : Bytes) :
    checksummedText (bodyOf entries) digits = bodyOf (entries ++ [(checksumKey, digits)]) := by
  simp [checksummedText, bodyOf]

theorem newline_notMem_checksumLine {digits : Bytes} (h : newline ∉ digits) :
    newline ∉ entryLine (checksumKey, digits) := by
  simp only [entryLine, List.mem_append, List.mem_cons, not_or]
  exact ⟨by decide, by decide, h⟩

theorem checksumKey_ok : checksumKey ≠ [] ∧ equalsSign ∉ checksumKey := by decide

/-- A checksummed text of well-formed entries is read back entry by entry. -/
theorem readLines_checksummedText {missingEquals duplicateKey digits : Bytes}
    {es : List (Bytes × Bytes)} (h : BodyOk es) (hd : newline ∉ digits) :
    readLines missingEquals duplicateKey (checksummedText (bodyOf es) digits) =
      .ok ⟨es ++ [(checksumKey, digits)], bodyOf es, digits⟩ := by
  have hline : ∀ l ∈ (es ++ [(checksumKey, digits)]).map entryLine, newline ∉ l := by
    simp only [List.map_append, List.map_cons, List.map_nil, List.mem_append, List.mem_map,
      List.mem_singleton]
    rintro l (⟨e, he, rfl⟩ | rfl)
    · exact h.oneLine e he
    · exact newline_notMem_checksumLine hd
  have hne : ∀ l ∈ (es ++ [(checksumKey, digits)]).map entryLine, l ≠ [] := by
    intro l hl
    obtain ⟨e, -, rfl⟩ := List.mem_map.mp hl
    exact entryLine_ne_nil e
  rw [readLines, checksummedText_bodyOf, bodyOf, pieces_lines newline hline]
  refine (foldlM_readLine_eq_ok hne).mpr ⟨es ++ [(checksumKey, digits)], rfl, ?_, ?_, by simp, ?_⟩
  · intro e he
    rcases List.mem_append.mp he with he | he
    · exact h.keys e he
    · obtain rfl := List.mem_singleton.mp he
      exact checksumKey_ok
  · rw [List.map_append, List.nodup_append]
    refine ⟨h.nodup, by simp, ?_⟩
    intro k hk k' hk'
    obtain ⟨e, he, rfl⟩ := List.mem_map.mp hk
    obtain rfl : k' = checksumKey := by simpa using hk'
    exact h.notChecksum e he
  · rw [List.foldl_append, foldl_extend_body h.notChecksum]
    simp [ManifestLines.extend, bodyOf]

/-- A list of lines that maps to entries splits where the list of lines does. -/
theorem exists_entries_of_lines {pre post : List (Bytes × Bytes)} {l : Bytes}
    {es : List (Bytes × Bytes)} (hpre : KeysOk pre) (hpost : KeysOk post) (hes : KeysOk es)
    (h : pre.map entryLine ++ l :: post.map entryLine = es.map entryLine) :
    ∃ e, l = entryLine e ∧ es = pre ++ e :: post := by
  obtain ⟨es₁, es₂, rfl, h₁, h₂⟩ := List.append_eq_map_iff.mp h
  obtain ⟨e, es₃, rfl, h₃, h₄⟩ := List.map_eq_cons_iff.mp h₂
  refine ⟨e, h₃.symm, ?_⟩
  rw [entryLine_injective (fun f hf => hes f (by simp [hf])) hpre h₁,
    entryLine_injective (fun f hf => hes f (by simp [hf])) hpost h₄]

/-- **Edits inside a body line**: when the edited text still reads, exactly one
entry `e` has become an entry `e'`, the body under the checksum is the edited
body and the checksum digits are the old ones. -/
theorem readLines_edit {missingEquals duplicateKey digits a x y b : Bytes}
    {es : List (Bytes × Bytes)} {read : ManifestLines} (h : BodyOk es) (hd : newline ∉ digits)
    (hbody : bodyOf es = a ++ x ++ b) (hlen : x.length = y.length) (hne : x ≠ [])
    (hx : newline ∉ x) (hy : newline ∉ y)
    (hread : readLines missingEquals duplicateKey (checksummedText (a ++ y ++ b) digits) =
      .ok read) :
    ∃ pre e e' post u v, es = pre ++ e :: post ∧
      entryLine e = u ++ x ++ v ∧ entryLine e' = u ++ y ++ v ∧
      a = bodyOf pre ++ u ∧
      ((pre ++ e' :: post).map Prod.fst).Nodup ∧
      read = ⟨pre ++ e' :: post ++ [(checksumKey, digits)], a ++ y ++ b, digits⟩ := by
  have hline : ∀ l ∈ es.map entryLine, newline ∉ l := by
    intro l hl
    obtain ⟨e, he, rfl⟩ := List.mem_map.mp hl
    exact h.oneLine e he
  obtain ⟨preL, l, postL, u, v, hsplit, rfl, rfl, rfl⟩ :=
    exists_line_of_edit hline hx hne hbody
  obtain ⟨pre, es₂, rfl, rfl, hes₂⟩ := List.map_eq_append_iff.mp hsplit
  obtain ⟨e, post, rfl, he, rfl⟩ := List.map_eq_cons_iff.mp hes₂
  have hedited : checksummedText (lines newline (pre.map entryLine) ++ u ++ y ++
      (v ++ newline :: lines newline (post.map entryLine))) digits =
      lines newline (pre.map entryLine ++ (u ++ y ++ v) :: (post ++
        [(checksumKey, digits)]).map entryLine) := by
    simp [checksummedText]
  have hpreOk : KeysOk pre := fun f hf => h.keys f (by simp [hf])
  have hpostOk : KeysOk (post ++ [(checksumKey, digits)]) := by
    intro f hf
    rcases List.mem_append.mp hf with hf | hf
    · exact h.keys f (by simp [hf])
    · obtain rfl := List.mem_singleton.mp hf
      exact checksumKey_ok
  have hnl : ∀ l ∈ pre.map entryLine ++ (u ++ y ++ v) :: (post ++
      [(checksumKey, digits)]).map entryLine, newline ∉ l := by
    intro l hl
    have huv : newline ∉ u ++ x ++ v := he ▸ h.oneLine e (by simp)
    simp only [List.mem_append, List.mem_cons, List.mem_map] at hl
    rcases hl with ⟨f, hf, rfl⟩ | rfl | ⟨f, hf | rfl | hf, rfl⟩
    · exact h.oneLine f (by simp [hf])
    · simp only [List.mem_append, not_or] at huv ⊢
      exact ⟨⟨huv.1.1, hy⟩, huv.2⟩
    · exact h.oneLine f (by simp [hf])
    · exact newline_notMem_checksumLine hd
    · simp at hf
  have hnil : ∀ l ∈ pre.map entryLine ++ (u ++ y ++ v) :: (post ++
      [(checksumKey, digits)]).map entryLine, l ≠ [] := by
    intro l hl
    simp only [List.mem_append, List.mem_cons, List.mem_map] at hl
    rcases hl with ⟨f, -, rfl⟩ | rfl | ⟨f, -, rfl⟩
    · exact entryLine_ne_nil f
    · -- the edit keeps the length of the line
      have hpos : y ≠ [] := fun hy0 => hne (List.length_eq_zero_iff.mp (by simp [hlen, hy0]))
      simp [hpos]
    · exact entryLine_ne_nil f
  rw [readLines, hedited, pieces_lines newline hnl] at hread
  obtain ⟨es', hes', hok, hnodup, -, rfl⟩ := (foldlM_readLine_eq_ok hnil).mp hread
  obtain ⟨e', he', rfl⟩ := exists_entries_of_lines hpreOk hpostOk hok hes'
  have hnodup' : ((pre ++ e' :: post).map Prod.fst ++ [checksumKey]).Nodup := by
    simpa using hnodup
  obtain ⟨hnodup₁, -, hdisj⟩ := List.nodup_append.mp hnodup'
  have hnot : ∀ f ∈ pre ++ e' :: post, f.1 ≠ checksumKey := fun f hf =>
    hdisj f.1 (List.mem_map.mpr ⟨f, hf, rfl⟩) checksumKey (by simp)
  refine ⟨pre, e, e', post, u, v, rfl, he, he'.symm, rfl, hnodup₁, ?_⟩
  have hassoc : pre ++ e' :: (post ++ [(checksumKey, digits)]) =
      (pre ++ e' :: post) ++ [(checksumKey, digits)] := by simp
  rw [hassoc, List.foldl_append, foldl_extend_body hnot]
  simp [ManifestLines.extend, ← he']

end GridFlux
