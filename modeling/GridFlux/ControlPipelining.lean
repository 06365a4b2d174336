/-
GridFlux/ControlPipelining.lean

Successive calls of `readLine` on one control connection, and how far what they
deliver depends on the way the byte stream is cut into receive results.

A receive takes up to 512 bytes, and the limit of 8192 bytes is put on the
buffer after it, which may hold the beginnings of later lines.  So a line that
fits may still be refused when bytes behind it arrive together with its end.
That is the only dependence: with pieces of at most `chunk` bytes the calls
deliver the lines of the stream (`lineCalls_eq`) if every line leaves room for
the `chunk - 1` bytes behind it, and with `chunk` one that is no condition at
all.  Hence all ways of cutting a stream agree exactly if its lines leave room
for 511 bytes (`segmentation_agrees_iff`).
-/
import GridFlux.ControlLine

namespace GridFlux

namespace ControlServer

open TextCodec

/-! ### Successive calls -/

/-- `char chunk[512]`. -/
def kReadChunk : Nat := 512

def closedStatus : Status := .runtimeError (ascii "control connection closed")

def tooLongStatus : Status := .invalidArgument (ascii "control line exceeds 8192 bytes")

/-- `readLine` once more, with the pieces it has not received yet. -/
def readLineFrom (buffer : Bytes) (received : List Bytes) :
    Except Status (Bytes × Bytes × List Bytes) :=
  if newline ∈ buffer then
    .ok (stripLineEnd (buffer.takeWhile (· ≠ newline) ++ [newline]),
      (buffer.dropWhile (· ≠ newline)).drop 1, received)
  else
    match received with
    | [] => .error closedStatus
    | piece :: received =>
        if piece = [] then readLineFrom buffer received
        else if (buffer ++ piece).length > kMaxControlLine then .error tooLongStatus
        else readLineFrom (buffer ++ piece) received

/-- What a call returns, without the pieces to come. -/
def withoutReceived : Bytes × Bytes × List Bytes → Bytes × Bytes
  | (line, buffer, _) => (line, buffer)

/-- It is `readLine`. -/
theorem readLineFrom_readLine (buffer : Bytes) (received : List Bytes) :
    (readLineFrom buffer received).map withoutReceived = readLine buffer received := by
  induction received generalizing buffer with
  | nil =>
      rw [readLineFrom, readLine]
      split
      · rfl
      · rfl
  | cons piece received ih =>
      rw [readLineFrom, readLine]
      split
      · rfl
      split
      · exact ih buffer
      split
      · rfl
      · exact ih (buffer ++ piece)

/-- The results of the next `n` calls; after an error there are no more. -/
def lineCalls : Nat → Bytes → List Bytes → List (Except Status Bytes)
  | 0, _, _ => []
  | n + 1, buffer, received =>
      match readLineFrom buffer received with
      | .error e => [.error e]
      | .ok (line, buffer, received) => .ok line :: lineCalls n buffer received

/-! ### The lines of a stream -/

/-- The results of `n` calls when a call sees one line and nothing else. -/
def wholeCalls : Nat → Bytes → List (Except Status Bytes)
  | 0, _ => []
  | n + 1, stream =>
      match splitFirst newline stream with
      | some (body, rest) =>
          if body.length < kMaxControlLine then
            .ok (stripLineEnd (body ++ [newline])) :: wholeCalls n rest
          else [.error tooLongStatus]
      | none => if stream.length ≤ kMaxControlLine then [.error closedStatus] else [.error tooLongStatus]

/-- Every line that is read, together with the bytes that one receive of
`chunk` bytes can bring behind it, stays within the limit. -/
def LeavesRoom (chunk : Nat) (stream : Bytes) : Prop :=
  ∀ bodies body rest, (∀ b ∈ bodies, newline ∉ b ∧ b.length < kMaxControlLine) →
    newline ∉ body → body.length < kMaxControlLine →
    stream = lines newline bodies ++ (body ++ newline :: rest) →
    body.length + 1 + min (chunk - 1) rest.length ≤ kMaxControlLine

/-- Single bytes bring nothing behind a line. -/
theorem leavesRoom_one (stream : Bytes) : LeavesRoom 1 stream := by
  intro bodies body rest _ _ hfits _
  rw [Nat.sub_self, Nat.zero_min]
  exact hfits

theorem LeavesRoom.rest {chunk : Nat} {body rest : Bytes}
    (h : LeavesRoom chunk (body ++ newline :: rest)) (hbody : newline ∉ body)
    (hfits : body.length < kMaxControlLine) : LeavesRoom chunk rest := by
  intro bodies body' rest' hbodies hbody' hfits' hrest
  apply h (body :: bodies) body' rest' _ hbody' hfits'
  · rw [lines_cons, hrest, List.append_assoc, List.cons_append]
  · intro b hb
    rcases List.mem_cons.mp hb with rfl | hb
    · exact ⟨hbody, hfits⟩
    · exact hbodies b hb

/-- The first line leaves room. -/
theorem LeavesRoom.head {chunk : Nat} {body rest : Bytes}
    (h : LeavesRoom chunk (body ++ newline :: rest)) (hbody : newline ∉ body)
    (hfits : body.length < kMaxControlLine) :
    body.length + 1 + min (chunk - 1) rest.length ≤ kMaxControlLine :=
  h [] body rest (fun _ hb => (List.not_mem_nil hb).elim) hbody hfits rfl

/-! ### One call -/

/-- A buffer that holds the end of a line gives the line. -/
theorem readLineFrom_buffered {body behind : Bytes} (hbody : newline ∉ body)
    (received : List Bytes) :
    readLineFrom (body ++ newline :: behind) received =
      .ok (stripLineEnd (body ++ [newline]), behind, received) := by
  have hpositive : ∀ c ∈ body, decide (c ≠ newline) = true := by
    intro c hc
    exact decide_eq_true fun heq => hbody (heq ▸ hc)
  have htake : (body ++ newline :: behind).takeWhile (· ≠ newline) = body := by
    rw [List.takeWhile_append_of_pos hpositive]
    simp
  have hdrop : (body ++ newline :: behind).dropWhile (· ≠ newline) = newline :: behind := by
    rw [List.dropWhile_append_of_pos hpositive]
    simp
  rw [readLineFrom.eq_def, if_pos (by simp), htake, hdrop]
  rfl

/-- A receive in the middle of a line. -/
theorem lineCalls_receive (n : Nat) {buffer : Bytes} (h : newline ∉ buffer) (piece : Bytes)
    (received : List Bytes) :
    lineCalls (n + 1) buffer (piece :: received) =
      if piece = [] then lineCalls (n + 1) buffer received
      else if (buffer ++ piece).length > kMaxControlLine then [.error tooLongStatus]
      else lineCalls (n + 1) (buffer ++ piece) received := by
  rw [lineCalls, readLineFrom, if_neg h]
  by_cases hempty : piece = []
  · rw [if_pos hempty, if_pos hempty, lineCalls]
  · rw [if_neg hempty, if_neg hempty]
    by_cases hlong : (buffer ++ piece).length > kMaxControlLine
    · rw [if_pos hlong, if_pos hlong]
    · rw [if_neg hlong, if_neg hlong, lineCalls]

/-- **One call**, the pieces being at most `chunk` bytes long: it does what the
stream says, and leaves the stream behind the line. -/
theorem lineCalls_succ {chunk : Nat} {buffer : Bytes} {received : List Bytes}
    (hpieces : ∀ piece ∈ received, piece.length ≤ chunk)
    (hroom : LeavesRoom chunk (buffer ++ received.flatten))
    (hbuffer : buffer.length ≤ kMaxControlLine) (n : Nat)
    (hnext : ∀ buffer' received', (∀ piece ∈ received', piece.length ≤ chunk) →
      LeavesRoom chunk (buffer' ++ received'.flatten) → buffer'.length ≤ kMaxControlLine →
      lineCalls n buffer' received' = wholeCalls n (buffer' ++ received'.flatten)) :
    lineCalls (n + 1) buffer received = wholeCalls (n + 1) (buffer ++ received.flatten) := by
  have hheld : ∀ buffer received, (∀ piece ∈ received, piece.length ≤ chunk) →
      LeavesRoom chunk (buffer ++ received.flatten) → buffer.length ≤ kMaxControlLine →
      newline ∈ buffer →
      lineCalls (n + 1) buffer received = wholeCalls (n + 1) (buffer ++ received.flatten) := by
    intro buffer received hpieces hroom hbuffer hmem
    rcases hsplit : splitFirst newline buffer with - | ⟨body, behind⟩
    · exact absurd hmem (splitFirst_eq_none.mp hsplit)
    · obtain ⟨rfl, hbody⟩ := splitFirst_eq_some.mp hsplit
      have hfits : body.length < kMaxControlLine := by
        rw [List.length_append, List.length_cons] at hbuffer
        omega
      rw [List.append_assoc, List.cons_append] at hroom ⊢
      rw [lineCalls, readLineFrom_buffered hbody, wholeCalls, splitFirst_append newline hbody]
      dsimp only
      rw [if_pos hfits, hnext behind received hpieces (hroom.rest hbody hfits)]
      rw [List.length_append, List.length_cons] at hbuffer
      omega
  by_cases hmem : newline ∈ buffer
  · exact hheld buffer received hpieces hroom hbuffer hmem
  -- the loop over the receives, as long as the line has not ended
  induction received generalizing buffer with
  | nil =>
      rw [List.flatten_nil, List.append_nil]
      rw [lineCalls, readLineFrom, if_neg hmem, wholeCalls, splitFirst_eq_none.mpr hmem]
      dsimp only
      rw [if_pos hbuffer]
  | cons piece received ih =>
      have hpieces' : ∀ p ∈ received, p.length ≤ chunk := fun p hp =>
        hpieces p (List.mem_cons_of_mem _ hp)
      rw [List.flatten_cons, ← List.append_assoc] at hroom ⊢
      rw [lineCalls_receive n hmem]
      split
      · rename_i hempty
        rw [hempty, List.append_nil] at hroom ⊢
        exact ih hpieces' hroom hbuffer hmem
      split
      · rename_i hlong
        -- the buffer has grown too long, and so is the line
        rw [wholeCalls]
        rcases hsplit : splitFirst newline (buffer ++ piece ++ received.flatten) with
          - | ⟨body, rest⟩
        · dsimp only
          rw [if_neg]
          rw [List.length_append]
          omega
        · obtain ⟨hstream, hbody⟩ := splitFirst_eq_some.mp hsplit
          dsimp only
          rw [if_neg]
          intro hfits
          rw [hstream] at hroom
          have hhead := hroom.head hbody hfits
          have hlength := congrArg List.length hstream
          have hpiece := hpieces piece List.mem_cons_self
          have hshort : buffer.length ≤ body.length := by
            have hprefix : buffer <+: body ++ newline :: rest := by
              rw [← hstream, List.append_assoc]
              exact List.prefix_append _ _
            by_contra hgt
            have hbodyPrefix : body ++ [newline] <+: buffer := by
              apply List.prefix_of_prefix_length_le _ hprefix
              · rw [List.length_append, List.length_singleton]
                omega
              · exact ⟨rest, by simp⟩
            exact hmem (hbodyPrefix.subset (by simp))
          simp only [List.length_append, List.length_cons] at hlength hlong
          omega
      · rename_i hshort
        by_cases hends : newline ∈ buffer ++ piece
        · exact hheld _ _ hpieces' hroom (Nat.not_lt.mp hshort) hends
        · exact ih hpieces' hroom (Nat.not_lt.mp hshort) hends

/-- **All calls.**  Pieces of at most `chunk` bytes deliver the lines of a
stream that leaves room for them. -/
theorem lineCalls_eq {chunk : Nat} (n : Nat) {buffer : Bytes} {received : List Bytes}
    (hpieces : ∀ piece ∈ received, piece.length ≤ chunk)
    (hroom : LeavesRoom chunk (buffer ++ received.flatten))
    (hbuffer : buffer.length ≤ kMaxControlLine) :
    lineCalls n buffer received = wholeCalls n (buffer ++ received.flatten) := by
  induction n generalizing buffer received with
  | zero => rfl
  | succ n ih =>
      apply lineCalls_succ hpieces hroom hbuffer n
      exact fun _ _ hpieces' hroom' hbuffer' => ih hpieces' hroom' hbuffer'

/-! ### Two ways of cutting a stream -/

/-- The receives deliver the stream, each at most a chunk. -/
def Cuts (stream : Bytes) (received : List Bytes) : Prop :=
  received.flatten = stream ∧ ∀ piece ∈ received, piece.length ≤ kReadChunk

/-- One byte a receive. -/
def singles (stream : Bytes) : List Bytes := stream.map fun b => [b]

@[simp] theorem flatten_singles (stream : Bytes) : (singles stream).flatten = stream := by
  induction stream with
  | nil => rfl
  | cons b stream ih =>
      show b :: (singles stream).flatten = b :: stream
      rw [ih]

theorem length_of_mem_singles {stream piece : Bytes} (h : piece ∈ singles stream) :
    piece.length = 1 := by
  obtain ⟨b, -, rfl⟩ := List.mem_map.mp h
  rfl

theorem singles_cuts (stream : Bytes) : Cuts stream (singles stream) := by
  refine ⟨flatten_singles stream, ?_⟩
  intro piece hpiece
  rw [length_of_mem_singles hpiece]
  decide

/-- Single bytes deliver the lines of every stream. -/
theorem lineCalls_singles (n : Nat) (stream : Bytes) :
    lineCalls n [] (singles stream) = wholeCalls n stream := by
  have hcalls := @lineCalls_eq 1 n [] (singles stream)
    (fun piece hpiece => (length_of_mem_singles hpiece).le) (leavesRoom_one _) (Nat.zero_le _)
  rwa [List.nil_append, flatten_singles] at hcalls

/-- Single bytes that end no line fill the buffer. -/
theorem lineCalls_singles_append (n : Nat) {buffer body : Bytes} (hbuffer : newline ∉ buffer)
    (hbody : newline ∉ body) (hfits : (buffer ++ body).length ≤ kMaxControlLine)
    (more : List Bytes) :
    lineCalls (n + 1) buffer (singles body ++ more) = lineCalls (n + 1) (buffer ++ body) more := by
  induction body generalizing buffer with
  | nil => rw [List.append_nil]; rfl
  | cons b body ih =>
      have hb : newline ∉ buffer ++ [b] := by
        rw [List.mem_append, List.mem_singleton, not_or]
        exact ⟨hbuffer, fun heq => hbody (heq ▸ List.mem_cons_self)⟩
      have hlength : (buffer ++ [b] ++ body).length ≤ kMaxControlLine := by
        rwa [List.append_assoc]
      have hshort : ¬(buffer ++ [b]).length > kMaxControlLine := by
        rw [List.length_append] at hlength
        omega
      show lineCalls (n + 1) buffer ([b] :: (singles body ++ more)) = _
      rw [lineCalls_receive n hbuffer, if_neg (List.cons_ne_nil b []), if_neg hshort,
        ih hb (fun hmem => hbody (List.mem_cons_of_mem b hmem)) hlength, List.append_assoc]
      rfl

/-- Lines that fit are delivered one by one. -/
theorem lineCalls_singles_lines {bodies : List Bytes}
    (h : ∀ b ∈ bodies, newline ∉ b ∧ b.length < kMaxControlLine) (n : Nat) (more : List Bytes) :
    lineCalls (bodies.length + n) [] (singles (lines newline bodies) ++ more) =
      bodies.map (fun b => .ok (stripLineEnd (b ++ [newline]))) ++ lineCalls n [] more := by
  induction bodies with
  | nil =>
      rw [List.length_nil, Nat.zero_add]
      rfl
  | cons body bodies ih =>
      obtain ⟨hbody, hfits⟩ := h body List.mem_cons_self
      have hsingles : singles (lines newline (body :: bodies)) ++ more =
          singles body ++ ([newline] :: (singles (lines newline bodies) ++ more)) := by
        rw [lines_cons, singles, singles, singles, List.map_append, List.map_cons]
        simp
      have hend : ¬(body ++ [newline]).length > kMaxControlLine := by
        rw [List.length_append, List.length_singleton]
        omega
      rw [List.length_cons, Nat.add_right_comm, hsingles,
        lineCalls_singles_append _ List.not_mem_nil hbody hfits.le, List.nil_append,
        lineCalls_receive _ hbody, if_neg (List.cons_ne_nil _ _), if_neg hend, lineCalls,
        readLineFrom_buffered hbody]
      dsimp only
      rw [ih fun b hb => h b (List.mem_cons_of_mem _ hb)]
      rfl

theorem wholeCalls_lines {bodies : List Bytes}
    (h : ∀ b ∈ bodies, newline ∉ b ∧ b.length < kMaxControlLine) (n : Nat) (stream : Bytes) :
    wholeCalls (bodies.length + n) (lines newline bodies ++ stream) =
      bodies.map (fun b => .ok (stripLineEnd (b ++ [newline]))) ++ wholeCalls n stream := by
  induction bodies with
  | nil =>
      rw [List.length_nil, Nat.zero_add]
      rfl
  | cons body bodies ih =>
      obtain ⟨hbody, hfits⟩ := h body List.mem_cons_self
      rw [List.length_cons, Nat.add_right_comm, lines_cons, List.append_assoc, List.cons_append,
        wholeCalls, splitFirst_append newline hbody]
      dsimp only
      rw [if_pos hfits, ih fun b hb => h b (List.mem_cons_of_mem _ hb)]
      rfl

/-- A line is refused when what follows it comes with its end. -/
theorem lineCalls_crowded {body rest : Bytes} (hbody : newline ∉ body)
    (hfits : body.length < kMaxControlLine)
    (hcrowded : kMaxControlLine < body.length + 1 + rest.length) (more : List Bytes) :
    lineCalls 1 [] (singles body ++ ((newline :: rest) :: more)) = [.error tooLongStatus] := by
  rw [lineCalls_singles_append _ List.not_mem_nil hbody hfits.le, List.nil_append,
    lineCalls_receive _ hbody, if_neg (List.cons_ne_nil _ _), if_pos]
  rw [List.length_append, List.length_cons]
  omega

/-- The way of cutting that brings as much as it can with the end of a line. -/
def crowded (bodies : List Bytes) (body rest : Bytes) : List Bytes :=
  singles (lines newline bodies) ++
    (singles body ++ ((newline :: rest.take (kReadChunk - 1)) ::
      singles (rest.drop (kReadChunk - 1))))

theorem crowded_cuts (bodies : List Bytes) (body rest : Bytes) :
    Cuts (lines newline bodies ++ (body ++ newline :: rest)) (crowded bodies body rest) := by
  constructor
  · rw [crowded, List.flatten_append, List.flatten_append, List.flatten_cons, flatten_singles,
      flatten_singles, flatten_singles, List.cons_append, List.take_append_drop]
  · intro piece hpiece
    have hsingle : piece.length = 1 → piece.length ≤ kReadChunk := fun h => by
      rw [h]
      decide
    rcases List.mem_append.mp hpiece with hpiece | hpiece
    · exact hsingle (length_of_mem_singles hpiece)
    rcases List.mem_append.mp hpiece with hpiece | hpiece
    · exact hsingle (length_of_mem_singles hpiece)
    rcases List.mem_cons.mp hpiece with rfl | hpiece
    · rw [List.length_cons, List.length_take, kReadChunk]
      omega
    · exact hsingle (length_of_mem_singles hpiece)

theorem lineCalls_crowded_lines {bodies : List Bytes} {body rest : Bytes}
    (hbodies : ∀ b ∈ bodies, newline ∉ b ∧ b.length < kMaxControlLine) (hbody : newline ∉ body)
    (hfits : body.length < kMaxControlLine)
    (hroom : kMaxControlLine < body.length + 1 + min (kReadChunk - 1) rest.length) :
    lineCalls (bodies.length + 1) [] (crowded bodies body rest) =
      bodies.map (fun b => .ok (stripLineEnd (b ++ [newline]))) ++ [.error tooLongStatus] := by
  rw [crowded, lineCalls_singles_lines hbodies, lineCalls_crowded hbody hfits]
  rwa [List.length_take]

theorem wholeCalls_fits {body rest : Bytes} (hbody : newline ∉ body)
    (hfits : body.length < kMaxControlLine) :
    wholeCalls 1 (body ++ newline :: rest) = [.ok (stripLineEnd (body ++ [newline]))] := by
  rw [wholeCalls, splitFirst_append newline hbody]
  dsimp only
  rw [if_pos hfits]
  rfl

/-- **Segmentation.**  All ways of cutting a stream into receive results give
the same lines and the same end exactly if every line before the first one that
is too long leaves room for the 511 bytes behind it. -/
theorem segmentation_agrees_iff (stream : Bytes) :
    (∀ received received', Cuts stream received → Cuts stream received' →
      ∀ n, lineCalls n [] received = lineCalls n [] received') ↔
        LeavesRoom kReadChunk stream := by
  constructor
  · intro hagree bodies body rest hbodies hbody hfits hstream
    by_contra hroom
    have hcrowded := lineCalls_crowded_lines hbodies hbody hfits (Nat.not_le.mp hroom)
    have hsingles := lineCalls_singles (bodies.length + 1) stream
    rw [hagree _ (crowded bodies body rest) (singles_cuts stream)
      (hstream ▸ crowded_cuts bodies body rest), hcrowded, hstream, wholeCalls_lines hbodies,
      wholeCalls_fits hbody hfits, List.append_cancel_left_eq] at hsingles
    cases List.singleton_inj.mp hsingles
  · intro hroom
    have hwhole : ∀ received, Cuts stream received →
        ∀ n, lineCalls n [] received = wholeCalls n stream := by
      rintro received ⟨rfl, hpieces⟩ n
      exact lineCalls_eq n hpieces hroom (Nat.zero_le _)
    intro received received' hcuts hcuts' n
    rw [hwhole received hcuts, hwhole received' hcuts']

/-- A line of exactly 8192 bytes, and another behind it. -/
def longLineThenNoop : Bytes := List.replicate 8191 65 ++ newline :: ascii "NOOP\r\n"

/-- The long line is read when its bytes come one by one, and refused when the
next one comes with its end. -/
theorem segmentation_disagrees :
    ∃ received received', Cuts longLineThenNoop received ∧ Cuts longLineThenNoop received' ∧
      (∃ line, lineCalls 1 [] received = [.ok line]) ∧
      lineCalls 1 [] received' = [.error tooLongStatus] := by
  have hbody : newline ∉ List.replicate 8191 (65 : UInt8) := by
    intro hmem
    cases List.eq_of_mem_replicate hmem
  have hfits : (List.replicate 8191 (65 : UInt8)).length < kMaxControlLine := by
    rw [List.length_replicate]
    decide
  refine ⟨singles longLineThenNoop, _, singles_cuts _,
    crowded_cuts [] (List.replicate 8191 65) (ascii "NOOP\r\n"), ?_, ?_⟩
  · rw [lineCalls_singles]
    exact ⟨_, wholeCalls_fits hbody hfits⟩
  · apply lineCalls_crowded_lines (fun _ hb => (List.not_mem_nil hb).elim) hbody hfits
    rw [List.length_replicate]
    decide

end ControlServer

end GridFlux
