/-
GridFlux/ChangedError.lean

`changedMessage` and `parseChangedError` of `tree_transfer_client.cpp`: the tree
client writes what changed into the message of a status and reads it out of the
message again for the event log.

The sizes and times always come back (`parseChangedError_details`): they are the
last words of the message.  The path comes back exactly if the message holds no
other separator before it (`changedPathOf_eq_iff`); the parser takes the last
colon before the first marker, and both may also stand in the path.
-/
import GridFlux.TreeJobs
import GridFlux.TextSearch
import GridFlux.ControlCommand

namespace GridFlux

open TextCodec

/-! ### The source -/

structure ChangedErrorDetails where
  changedPath : Bytes := []
  manifestSize : Bytes := []
  manifestMtime : Bytes := []
  currentSize : Bytes := []
  currentMtime : Bytes := []
deriving DecidableEq, Repr

def sizeMarker : Bytes := ascii " manifest_size="

def pathSeparator : Bytes := ascii ": "

/-- The `substr` of `parseChangedError`.  Where the path would begin beyond the
marker the length wraps around, which leaves the whole rest. -/
def changedPathOf (message : Bytes) (markerPos : Nat) : Bytes :=
  let start := (rfind pathSeparator message markerPos).elim 0 (· + 2)
  if start ≤ markerPos then (message.drop start).take (markerPos - start) else message.drop start

def ChangedErrorDetails.set (details : ChangedErrorDetails) (key value : Bytes) :
    ChangedErrorDetails :=
  if key = ascii "manifest_size" then { details with manifestSize := value }
  else if key = ascii "manifest_mtime" then { details with manifestMtime := value }
  else if key = ascii "current_size" then { details with currentSize := value }
  else if key = ascii "current_mtime" then { details with currentMtime := value }
  else details

/-- One round of the `input >> token` loop. -/
def readDetail (details : ChangedErrorDetails) (token : Bytes) : ChangedErrorDetails :=
  match splitFirst equalsSign token with
  | none => details
  | some (key, value) => details.set key value

/-- `parseChangedError`. -/
def parseChangedError (message : Bytes) : ChangedErrorDetails :=
  (words isSpace message).foldl readDetail
    { changedPath := (find sizeMarker message).elim [] (changedPathOf message) }

/-- What the callers of `changedMessage` pass for its `prefix`. -/
def changedPrefixes : List Bytes :=
  [ascii "source file changed", ascii "remote file changed",
    ascii "completed download file changed"]

/-! ### The message -/

/-- One `key=value` of the message. -/
def detailWord (key value : Bytes) : Bytes := key ++ equalsSign :: value

/-- What `changedMessage` writes behind the path. -/
def detailText (record : TreeFileRecord) (current : FileMetadata) : Bytes :=
  32 :: (detailWord (ascii "manifest_size") (decimal record.size) ++
    32 :: (detailWord (ascii "manifest_mtime") (signedDecimal record.mtimeUnixSeconds) ++
      32 :: (detailWord (ascii "current_size") (decimal current.size) ++
        32 :: detailWord (ascii "current_mtime") (signedDecimal current.mtimeUnixSeconds))))

theorem changedMessage_eq (start : Bytes) (record : TreeFileRecord) (current : FileMetadata) :
    changedMessage start record current =
      start ++ (pathSeparator ++ (record.relativePath ++ detailText record current)) := by
  have hsize : ascii " manifest_size=" = 32 :: (ascii "manifest_size" ++ [equalsSign]) := rfl
  have hmtime : ascii " manifest_mtime=" = 32 :: (ascii "manifest_mtime" ++ [equalsSign]) := rfl
  have hsize' : ascii " current_size=" = 32 :: (ascii "current_size" ++ [equalsSign]) := rfl
  have hmtime' : ascii " current_mtime=" = 32 :: (ascii "current_mtime" ++ [equalsSign]) := rfl
  simp only [changedMessage, manifestMessage, detailText, detailWord, pathSeparator, hsize, hmtime,
    hsize', hmtime', List.append_assoc, List.cons_append, List.nil_append]

theorem mem_signedDecimal {value : Int} {b : UInt8} (hb : b ∈ signedDecimal value) :
    b = dash ∨ isDigit b = true := by
  rw [signedDecimal] at hb
  split at hb
  · rcases List.mem_cons.mp hb with hdash | hdigit
    · exact .inl hdash
    · exact .inr (isDigit_of_mem_decimal hdigit)
  · exact .inr (isDigit_of_mem_decimal hb)

/-- Digits and the sign are neither blanks nor colons. -/
theorem numeral_plain {b : UInt8} (hb : b = dash ∨ isDigit b = true) :
    ¬isSpace b = true ∧ b ≠ colon := by
  rcases hb with rfl | hdigit
  · decide
  · rw [isDigit, Bool.and_eq_true, decide_eq_true_eq, decide_eq_true_eq] at hdigit
    obtain ⟨hlow, hhigh⟩ := hdigit
    constructor
    · intro hspace
      rw [isSpace, Bool.or_eq_true, Bool.and_eq_true] at hspace
      simp only [decide_eq_true_eq] at hspace
      rcases hspace with rfl | ⟨-, hle⟩
      · exact absurd hlow (by decide)
      · exact absurd (UInt8.le_trans hlow hle) (by decide)
    · rintro rfl
      exact absurd hhigh (by decide)

/-- A word of the message, which is cut out of it whole. -/
theorem words_detailWord {key value : Bytes} (hkey : key.any isSpace = false)
    (hvalue : ∀ b ∈ value, ¬isSpace b = true) :
    words isSpace (detailWord key value) = [detailWord key value] := by
  apply words_of_no_blank
  · exact List.append_ne_nil_of_right_ne_nil key (List.cons_ne_nil _ _)
  · intro b hb
    rcases List.mem_append.mp hb with hb | hb
    · exact List.any_eq_false.mp hkey b hb
    · rcases List.mem_cons.mp hb with rfl | hb
      · decide
      · exact hvalue b hb

theorem words_detailText (front : Bytes) (record : TreeFileRecord) (current : FileMetadata) :
    words isSpace (front ++ detailText record current) = words isSpace front ++
      [detailWord (ascii "manifest_size") (decimal record.size),
        detailWord (ascii "manifest_mtime") (signedDecimal record.mtimeUnixSeconds),
        detailWord (ascii "current_size") (decimal current.size),
        detailWord (ascii "current_mtime") (signedDecimal current.mtimeUnixSeconds)] := by
  have hdecimal : ∀ n, ∀ b ∈ decimal n, ¬isSpace b = true := fun n b hb =>
    (numeral_plain (.inr (isDigit_of_mem_decimal hb))).1
  have hsigned : ∀ n, ∀ b ∈ signedDecimal n, ¬isSpace b = true := fun n b hb =>
    (numeral_plain (mem_signedDecimal hb)).1
  have hblank : isSpace 32 = true := rfl
  rw [detailText, words_append front hblank, words_append _ hblank, words_append _ hblank,
    words_append _ hblank, words_detailWord rfl (hdecimal _),
    words_detailWord rfl (hsigned _), words_detailWord rfl (hdecimal _),
    words_detailWord rfl (hsigned _)]
  rfl

/-! ### The sizes and the times -/

theorem readDetail_detailWord {key : Bytes} (hkey : equalsSign ∉ key)
    (details : ChangedErrorDetails) (value : Bytes) :
    readDetail details (detailWord key value) = details.set key value := by
  rw [readDetail, detailWord, splitFirst_append equalsSign hkey]

@[simp] theorem ChangedErrorDetails.set_changedPath (details : ChangedErrorDetails)
    (key value : Bytes) : (details.set key value).changedPath = details.changedPath := by
  unfold ChangedErrorDetails.set
  repeat' split
  all_goals rfl

theorem foldl_readDetail_changedPath (tokens : List Bytes) (details : ChangedErrorDetails) :
    (tokens.foldl readDetail details).changedPath = details.changedPath := by
  induction tokens generalizing details with
  | nil => rfl
  | cons token tokens ih =>
      rw [List.foldl_cons, ih, readDetail]
      split
      · rfl
      · exact details.set_changedPath _ _

/-- Whatever the words before said, the four of the message are read last. -/
theorem foldl_readDetail_detailText (tokens : List Bytes) (path : Bytes) (record : TreeFileRecord)
    (current : FileMetadata) :
    (tokens ++
      [detailWord (ascii "manifest_size") (decimal record.size),
        detailWord (ascii "manifest_mtime") (signedDecimal record.mtimeUnixSeconds),
        detailWord (ascii "current_size") (decimal current.size),
        detailWord (ascii "current_mtime") (signedDecimal current.mtimeUnixSeconds)]).foldl
      readDetail { changedPath := path } =
    ⟨path, decimal record.size, signedDecimal record.mtimeUnixSeconds, decimal current.size,
      signedDecimal current.mtimeUnixSeconds⟩ := by
  rw [List.foldl_append]
  have hpath := foldl_readDetail_changedPath tokens { changedPath := path }
  generalize tokens.foldl readDetail { changedPath := path } = before at hpath
  simp only [List.foldl_cons, List.foldl_nil]
  rw [readDetail_detailWord (by decide), readDetail_detailWord (by decide),
    readDetail_detailWord (by decide), readDetail_detailWord (by decide)]
  have hsame : before.changedPath = path := hpath
  subst hsame
  rfl

theorem parseChangedError_details (start : Bytes) (record : TreeFileRecord)
    (current : FileMetadata) :
    parseChangedError (changedMessage start record current) =
      ⟨(find sizeMarker (changedMessage start record current)).elim []
          (changedPathOf (changedMessage start record current)),
        decimal record.size, signedDecimal record.mtimeUnixSeconds, decimal current.size,
        signedDecimal current.mtimeUnixSeconds⟩ := by
  rw [parseChangedError]
  generalize (find sizeMarker (changedMessage start record current)).elim []
    (changedPathOf (changedMessage start record current)) = path
  have hmessage : changedMessage start record current =
      (start ++ (pathSeparator ++ record.relativePath)) ++ detailText record current := by
    rw [changedMessage_eq]
    simp only [List.append_assoc]
  rw [hmessage, words_detailText, foldl_readDetail_detailText]

/-! ### The path -/

theorem colon_notMem_detailText (record : TreeFileRecord) (current : FileMetadata) :
    colon ∉ detailText record current := by
  have hdecimal : ∀ n, colon ∉ decimal n := fun n hb =>
    (numeral_plain (.inr (isDigit_of_mem_decimal hb))).2 rfl
  have hsigned : ∀ n, colon ∉ signedDecimal n := fun n hb =>
    (numeral_plain (mem_signedDecimal hb)).2 rfl
  have hword : ∀ key value : Bytes, colon ∉ key → colon ∉ value →
      colon ∉ 32 :: detailWord key value := by
    intro key value hkey hvalue hmem
    rcases List.mem_cons.mp hmem with hblank | hmem
    · exact absurd hblank (by decide)
    · rcases List.mem_append.mp hmem with hmem | hmem
      · exact hkey hmem
      · rcases List.mem_cons.mp hmem with hequals | hmem
        · exact absurd hequals (by decide)
        · exact hvalue hmem
  have hparts : detailText record current =
      (32 :: detailWord (ascii "manifest_size") (decimal record.size)) ++
      ((32 :: detailWord (ascii "manifest_mtime") (signedDecimal record.mtimeUnixSeconds)) ++
      ((32 :: detailWord (ascii "current_size") (decimal current.size)) ++
        (32 :: detailWord (ascii "current_mtime") (signedDecimal current.mtimeUnixSeconds)))) := by
    simp only [detailText, List.cons_append]
  rw [hparts, List.mem_append, List.mem_append, List.mem_append]
  rintro (hmem | hmem | hmem | hmem)
  · exact hword _ _ (by decide) (hdecimal _) hmem
  · exact hword _ _ (by decide) (hsigned _) hmem
  · exact hword _ _ (by decide) (hdecimal _) hmem
  · exact hword _ _ (by decide) (hsigned _) hmem

/-- Only the marker of a message begins with a blank and an `m` there. -/
theorem no_sizeMarker_in_prefix (hstart : start ∈ changedPrefixes) (rest : Bytes) :
    ∀ k ≤ start.length, ¬OccursAt sizeMarker (start ++ colon :: rest) k := by
  have hplain : ∀ s ∈ changedPrefixes, ∀ k < s.length + 1,
      ¬((s ++ [colon])[k]? = some 32 ∧ (s ++ [colon])[k + 1]? = some 109) ∧
        (k = s.length → (s ++ [colon])[k]? ≠ some 32) := by decide
  intro k hk hoccurs
  have hzero : (start ++ colon :: rest)[k]? = some 32 := hoccurs.getElem? (by decide : 0 < 15)
  have hone : (start ++ colon :: rest)[k + 1]? = some 109 := hoccurs.getElem? (by decide : 1 < 15)
  have hsplit : start ++ colon :: rest = (start ++ [colon]) ++ rest := by
    rw [List.append_assoc]
    rfl
  have hlength : (start ++ [colon]).length = start.length + 1 := by rw [List.length_append]; rfl
  rw [hsplit] at hzero hone
  rw [List.getElem?_append_left (by omega)] at hzero
  rcases Nat.lt_or_eq_of_le hk with hlt | heq
  · rw [List.getElem?_append_left (by omega)] at hone
    exact (hplain start hstart k (by omega)).1 ⟨hzero, hone⟩
  · exact (hplain start hstart k (by omega)).2 heq hzero

/-- The marker of the message, and the markers in the path before it. -/
theorem find_sizeMarker (hstart : start ∈ changedPrefixes) (path : Bytes) {tail rest : Bytes}
    (htail : tail = sizeMarker ++ rest) :
    ∃ j ≤ path.length + 1,
      find sizeMarker (start ++ (pathSeparator ++ (path ++ tail))) =
        some (start.length + 1 + j) ∧
      (j = path.length + 1 ↔ ¬sizeMarker <:+: 32 :: path) := by
  have hmessage : start ++ (pathSeparator ++ (path ++ tail)) =
      (start ++ [colon]) ++ ((32 :: path) ++ tail) := by
    rw [List.append_assoc]
    rfl
  have hfront : (start ++ [colon]).length = start.length + 1 := by
    rw [List.length_append]
    rfl
  have hshown : (32 :: path).length = path.length + 1 := List.length_cons
  have hat : ∀ i, OccursAt sizeMarker (start ++ (pathSeparator ++ (path ++ tail)))
      (start.length + 1 + i) ↔ OccursAt sizeMarker ((32 :: path) ++ tail) i := by
    intro i
    rw [hmessage, ← hfront]
    exact occursAt_append_right i
  have hlast : OccursAt sizeMarker ((32 :: path) ++ tail) (path.length + 1) := by
    rw [OccursAt, ← hshown, List.drop_left, htail]
    exact List.prefix_append _ _
  have hwithin : ∀ i < path.length + 1, (OccursAt sizeMarker ((32 :: path) ++ tail) i ↔
      OccursAt sizeMarker (32 :: path) i) := by
    intro i hi
    have htail' : tail = 32 :: (ascii "manifest_size=" ++ rest) := htail
    rw [htail']
    exact occursAt_before (by decide) (by rwa [hshown])
  have hlength : path.length + 1 + (start.length + 1) ≤
      (start ++ (pathSeparator ++ (path ++ tail))).length := by
    rw [hmessage, List.length_append, hfront, List.length_append, hshown]
    omega
  cases hfind : find sizeMarker (start ++ (pathSeparator ++ (path ++ tail))) with
  | none =>
      exact absurd ((hat _).mpr hlast) (find_eq_none.mp hfind _ (by omega))
  | some q =>
      obtain ⟨hoccurs, hle, hfirst⟩ := find_eq_some.mp hfind
      have hbeyond : start.length < q := by
        by_contra hnot
        exact no_sizeMarker_in_prefix hstart (32 :: (path ++ tail)) q (Nat.le_of_not_lt hnot)
          hoccurs
      obtain ⟨j, rfl⟩ := Nat.exists_eq_add_of_le (Nat.succ_le_of_lt hbeyond)
      rw [Nat.succ_eq_add_one] at *
      have hj : j ≤ path.length + 1 := by
        by_contra hnot
        exact hfirst (start.length + 1 + (path.length + 1)) (by omega) ((hat _).mpr hlast)
      refine ⟨j, hj, rfl, ?_⟩
      rw [infix_iff_occursAt]
      constructor
      · rintro rfl ⟨i, -, hinfix⟩
        have hi := hinfix.length_le (List.cons_ne_nil _ _)
        have hpos : sizeMarker.length = 15 := rfl
        rw [hshown] at hi
        exact hfirst (start.length + 1 + i) (by omega)
          ((hat i).mpr ((hwithin i (by omega)).mpr hinfix))
      · intro hnone
        by_contra hne
        have hlt : j < path.length + 1 := Nat.lt_of_le_of_ne hj hne
        apply hnone
        refine ⟨j, ?_, (hwithin j hlt).mp ((hat j).mp hoccurs)⟩
        rw [hshown]
        exact hj

/-- The colon that the parser takes: the one of the message, or one of the path. -/
theorem rfind_pathSeparator (start path rest : Bytes) {j : Nat} (hj : j ≤ path.length + 1) :
    ∃ k, rfind pathSeparator (start ++ (pathSeparator ++ (path ++ 32 :: rest)))
        (start.length + 1 + j) = some (start.length + k) ∧
      (k = 0 ∨ ∃ c, k = c + 2 ∧ c < path.length ∧ c < j ∧ path[c]? = some colon) ∧
      (j = path.length + 1 → (k = 0 ↔ ¬pathSeparator <:+: path ++ [32])) := by
  have hat : ∀ i, OccursAt pathSeparator (start ++ (pathSeparator ++ (path ++ 32 :: rest)))
      (start.length + i) ↔ OccursAt pathSeparator (pathSeparator ++ (path ++ 32 :: rest)) i :=
    fun i => occursAt_append_right i
  have hin : ∀ c, OccursAt pathSeparator (pathSeparator ++ (path ++ 32 :: rest)) (c + 2) ↔
      OccursAt pathSeparator (path ++ 32 :: rest) c := by
    intro c
    rw [Nat.add_comm]
    exact occursAt_append_right c
  have hzero : OccursAt pathSeparator (pathSeparator ++ (path ++ 32 :: rest)) 0 :=
    List.prefix_append _ _
  have hpath : ∀ c, c < path.length → (OccursAt pathSeparator (path ++ 32 :: rest) c ↔
      OccursAt pathSeparator (path ++ [32]) c) := by
    intro c hc
    have hsplit : path ++ 32 :: rest = (path ++ [32]) ++ rest := by
      rw [List.append_assoc]
      rfl
    rw [hsplit]
    apply occursAt_append_left
    rw [List.length_append]
    show c + 2 ≤ path.length + 1
    omega
  cases hfind : rfind pathSeparator (start ++ (pathSeparator ++ (path ++ 32 :: rest)))
      (start.length + 1 + j) with
  | none =>
      have hno := rfind_eq_none.mp hfind (start.length + 0) (by omega)
      exact absurd ((hat 0).mpr hzero) hno
  | some q =>
      obtain ⟨hoccurs, hle, hlast⟩ := rfind_eq_some.mp hfind
      have hq : start.length ≤ q := by
        by_contra hnot
        exact hlast (start.length + 0) (by omega) (by omega) ((hat 0).mpr hzero)
      obtain ⟨k, rfl⟩ := Nat.exists_eq_add_of_le hq
      have hk := (hat k).mp hoccurs
      have hcases : k = 0 ∨ ∃ c, k = c + 2 ∧ c < path.length ∧ c < j ∧
          path[c]? = some colon := by
        cases k with
        | zero => exact .inl rfl
        | succ k =>
            cases k with
            | zero =>
                -- behind the colon of the message stands its blank
                have hblank : (pathSeparator ++ (path ++ 32 :: rest))[1 + 0]? = some colon :=
                  hk.getElem? (by decide : 0 < 2)
                cases hblank
            | succ c =>
                have hc := (hin c).mp hk
                have hcolon : (path ++ 32 :: rest)[c]? = some colon :=
                  hc.getElem? (by decide : 0 < 2)
                have hcle : c ≤ path.length := by omega
                rcases Nat.lt_or_eq_of_le hcle with hclt | rfl
                · rw [List.getElem?_append_left hclt] at hcolon
                  exact .inr ⟨c, rfl, hclt, by omega, hcolon⟩
                · rw [List.getElem?_append_right (Nat.le_refl _), Nat.sub_self] at hcolon
                  cases hcolon
      refine ⟨k, rfl, hcases, ?_⟩
      rintro rfl
      rw [infix_iff_occursAt]
      constructor
      · rintro rfl ⟨c, -, hc⟩
        have hlength := hc.length_le (List.cons_ne_nil _ _)
        rw [List.length_append] at hlength
        have hclt : c < path.length := by
          have htwo : pathSeparator.length = 2 := rfl
          have hone : [(32 : UInt8)].length = 1 := rfl
          omega
        exact hlast (start.length + (c + 2)) (by omega) (by omega)
          ((hat _).mpr ((hin c).mpr ((hpath c hclt).mpr hc)))
      · intro hnone
        rcases hcases with hzero | ⟨c, rfl, hclt, -, -⟩
        · exact hzero
        · refine absurd ⟨c, ?_, (hpath c hclt).mp ((hin c).mp hk)⟩ hnone
          rw [List.length_append]
          omega

/-- **The path comes back** exactly if the parser takes the colon and the marker
of the message. -/
theorem changedPathOf_eq_iff (start path : Bytes) {rest : Bytes} (hrest : colon ∉ 32 :: rest)
    {j k : Nat} (hj : j ≤ path.length + 1)
    (hfound : rfind pathSeparator (start ++ (pathSeparator ++ (path ++ 32 :: rest)))
      (start.length + 1 + j) = some (start.length + k))
    (hcases : k = 0 ∨ ∃ c, k = c + 2 ∧ c < path.length ∧ c < j ∧ path[c]? = some colon) :
    changedPathOf (start ++ (pathSeparator ++ (path ++ 32 :: rest))) (start.length + 1 + j) =
      path ↔ k = 0 ∧ j = path.length + 1 := by
  have hdrop : (start ++ (pathSeparator ++ (path ++ 32 :: rest))).drop (start.length + k + 2) =
      (path ++ 32 :: rest).drop k := by
    have hlength : start.length + k + 2 = start.length + (pathSeparator.length + k) := by
      show _ = start.length + (2 + k)
      omega
    rw [hlength, ← List.drop_drop, List.drop_left, ← List.drop_drop, List.drop_left]
  rw [changedPathOf, hfound]
  show (if start.length + k + 2 ≤ start.length + 1 + j then
    (List.drop (start.length + k + 2) _).take (start.length + 1 + j - (start.length + k + 2))
    else List.drop (start.length + k + 2) _) = path ↔ _
  rw [hdrop]
  split
  · rename_i hstart
    have htake : start.length + 1 + j - (start.length + k + 2) = j - 1 - k := by omega
    rw [htake]
    constructor
    · intro heq
      have hlength := congrArg List.length heq
      rw [List.length_take, List.length_drop, List.length_append, List.length_cons] at hlength
      omega
    · rintro ⟨rfl, rfl⟩
      exact List.take_left' (by omega)
  · rename_i hstart
    constructor
    · intro heq
      rcases hcases with rfl | ⟨c, rfl, hclt, hcj, hcolon⟩
      · -- the rest is the path and all that follows it
        have hlength := congrArg List.length heq
        rw [List.length_drop, List.length_append, List.length_cons] at hlength
        omega
      · -- the rest lacks a colon that the path has
        have hcount := congrArg (List.count colon) heq
        have hall := congrArg (List.count colon) (List.take_append_drop (c + 2) (path ++ 32 :: rest))
        rw [List.count_append, List.count_append, hcount, List.count_eq_zero.mpr hrest] at hall
        have hmem : colon ∈ (path ++ 32 :: rest).take (c + 2) := by
          apply List.mem_of_getElem? (i := c)
          rw [List.getElem?_take_of_lt (by omega), List.getElem?_append_left hclt]
          exact hcolon
        have hpos := List.count_pos_iff.mpr hmem
        omega
    · rintro ⟨rfl, rfl⟩
      omega

/-! ### Reading the message back -/

/-- **`parseChangedError` inverts `changedMessage`** exactly for the paths that
hold neither separator of the message: no colon before a blank or at the end, no
marker at the beginning or behind a blank. -/
theorem parseChangedError_changedMessage (start : Bytes) (record : TreeFileRecord)
    (current : FileMetadata) (hstart : start ∈ changedPrefixes) :
    parseChangedError (changedMessage start record current) =
        ⟨record.relativePath, decimal record.size, signedDecimal record.mtimeUnixSeconds,
          decimal current.size, signedDecimal current.mtimeUnixSeconds⟩ ↔
      ¬pathSeparator <:+: record.relativePath ++ [32] ∧
        ¬sizeMarker <:+: 32 :: record.relativePath := by
  have htail : detailText record current = sizeMarker ++ (detailText record current).drop 15 := rfl
  have hblank : detailText record current = 32 :: (detailText record current).drop 1 := rfl
  have hcolon := colon_notMem_detailText record current
  obtain ⟨j, hj, hfind, hmarker⟩ := find_sizeMarker hstart record.relativePath htail
  obtain ⟨k, hrfind, hcases, hseparator⟩ :=
    rfind_pathSeparator start record.relativePath ((detailText record current).drop 1) hj
  rw [← hblank] at hrfind
  rw [parseChangedError_details, changedMessage_eq, hfind]
  rw [hblank] at hcolon
  have hpath := changedPathOf_eq_iff start record.relativePath hcolon hj
    (by rw [← hblank]; exact hrfind) hcases
  rw [← hblank] at hpath
  rw [Option.elim_some]
  constructor
  · intro heq
    obtain ⟨hk, hall⟩ := hpath.mp (congrArg ChangedErrorDetails.changedPath heq)
    exact ⟨(hseparator hall).mp hk, hmarker.mp hall⟩
  · rintro ⟨hnoSeparator, hnoMarker⟩
    have hall := hmarker.mpr hnoMarker
    rw [hpath.mpr ⟨(hseparator hall).mpr hnoSeparator, hall⟩]

theorem parseChangedError_changedMessage_plain :
    parseChangedError (changedMessage (ascii "remote file changed")
        ⟨ascii "dir/a b.txt", 3, 5, ascii "t1", .completed, []⟩ ⟨4, -6⟩) =
      ⟨ascii "dir/a b.txt", decimal 3, signedDecimal 5, decimal 4, signedDecimal (-6)⟩ :=
  (parseChangedError_changedMessage (ascii "remote file changed")
    ⟨ascii "dir/a b.txt", 3, 5, ascii "t1", .completed, []⟩ ⟨4, -6⟩ (by decide)).mpr (by decide)

/-- A colon before a blank in an accepted path is taken for the one of the
message, and another file is reported. -/
theorem parseChangedError_colon_in_path :
    ascii "source file changed" ∈ changedPrefixes ∧
      validateTreeRelativePath (ascii "notes: draft.txt") = .ok () ∧
      parseChangedError (changedMessage (ascii "source file changed")
          ⟨ascii "notes: draft.txt", 3, 5, ascii "t1", .pending, []⟩ ⟨4, 5⟩) =
        ⟨ascii "draft.txt", decimal 3, signedDecimal 5, decimal 4, signedDecimal 5⟩ ∧
      ascii "draft.txt" ≠ ascii "notes: draft.txt" := by
  refine ⟨by decide, by decide, ?_, by decide⟩
  decide +kernel

end GridFlux
