/-
GridFlux/TransferProgress.lean

`core::chunk::TransferProgress`, the second record of received ranges, and its
simulation by `RangeList`.

`TransferProgress` keeps every range as it came, with its chunk id, sorted and
never joined; `RangeList` joins neighbours.  `Simulates` relates the two: the
same bytes, the same count.  Any frame is then accepted by both or by neither
(`Simulates.recordFrame`), and `finish` succeeds when nothing is missing
(`Simulates.finish`).
-/
import GridFlux.RangeListRuns

namespace GridFlux

open HalfOpen Transition

/-- `TransferProgressError`. -/
inductive TransferProgressError
  | none
  | duplicateRange
  | rangeOutOfBounds
  | missingRange
deriving DecidableEq, Repr

/-- `TransferProgress::Range`. -/
structure ProgressRange extends CompletedRange where
  chunkId : Nat
deriving DecidableEq, Repr

/-- `core::chunk::TransferProgress`. -/
structure TransferProgress where
  totalSize : Nat := 0
  bytesCompleted : Nat := 0
  lastError : TransferProgressError := .none
  started : Bool := false
  ranges : List ProgressRange := []
deriving DecidableEq, Repr

namespace TransferProgress

/-- `TransferProgress::begin`; it starts over whatever was there. -/
def begin (_ : TransferProgress) (totalSize : Nat) : TransferProgress :=
  { totalSize := totalSize, bytesCompleted := 0, lastError := .none, started := true, ranges := [] }

/-- Return the error and remember its kind. -/
def fail (p : TransferProgress) (error : TransferProgressError) (status : Status) :
    Except Status Unit × TransferProgress :=
  (.error status, { p with lastError := error })

def succeed (p : TransferProgress) : Except Status Unit × TransferProgress :=
  (.ok (), { p with lastError := .none })

/-- `TransferProgress::recordFrame`. -/
def recordFrame (p : TransferProgress) (chunkId offset length : Nat) :
    Except Status Unit × TransferProgress :=
  if p.started = false then
    p.fail .rangeOutOfBounds (.runtimeError (ascii "transfer progress was not started"))
  else if length = 0 then
    p.fail .rangeOutOfBounds
      (.invalidArgument (ascii "range length must be greater than zero"))
  else if offset > p.totalSize ∨ length > p.totalSize - offset then
    p.fail .rangeOutOfBounds (.invalidArgument (ascii "range exceeds transfer size"))
  else
    let «end» := offset + length
    -- `std::lower_bound(…, offset, range.begin < value)`
    let halves := p.ranges.span fun range => range.begin < offset
    if halves.1.getLast?.any (fun previous => previous.end > offset) then
      p.fail .duplicateRange
        (.invalidArgument (ascii "range overlaps previous completed range"))
    else if halves.2.head?.any (fun next => next.begin < «end») then
      p.fail .duplicateRange (.invalidArgument (ascii "range overlaps next completed range"))
    else
      succeed { p with
        ranges := halves.1 ++ ⟨⟨offset, «end»⟩, chunkId⟩ :: halves.2
        bytesCompleted := p.bytesCompleted + length }

/-- The loop of `finish`: each range must begin where the last one ended.
`none` when one does not. -/
def walk (expected : Nat) : List ProgressRange → Option Nat
  | [] => some expected
  | range :: ranges => if range.begin ≠ expected then none else walk range.end ranges

/-- `TransferProgress::finish`. -/
def finish (p : TransferProgress) : Except Status Unit × TransferProgress :=
  if p.started = false then
    p.fail .missingRange (.runtimeError (ascii "transfer progress was not started"))
  else if p.totalSize = 0 then
    if p.ranges ≠ [] ∨ p.bytesCompleted ≠ 0 then
      p.fail .rangeOutOfBounds (.runtimeError (ascii "empty transfer has completed ranges"))
    else p.succeed
  else
    match walk 0 p.ranges with
    | none => p.fail .missingRange (.runtimeError (ascii "transfer has missing range"))
    | some expected =>
        if expected ≠ p.totalSize ∨ p.bytesCompleted ≠ p.totalSize then
          p.fail .missingRange
            (.runtimeError (ascii "transfer did not complete expected size"))
        else p.succeed

/-! ### One frame -/

/-- The ranges without their chunk ids. -/
def intervals (p : TransferProgress) : List CompletedRange := p.ranges.map ProgressRange.toInterval

/-- The halves `recordFrame` works on. -/
def halves (p : TransferProgress) (offset : Nat) : List ProgressRange × List ProgressRange :=
  p.ranges.span fun range => range.begin < offset

section Frames

variable {p : TransferProgress} {chunkId offset length : Nat}

theorem intervals_halves (p : TransferProgress) (offset : Nat) :
    RangeList.lowerBoundBegin p.intervals offset =
      ((p.halves offset).1.map ProgressRange.toInterval,
        (p.halves offset).2.map ProgressRange.toInterval) := by
  simp only [RangeList.lowerBoundBegin, intervals, halves, List.span_eq_takeWhile_dropWhile,
    List.takeWhile_map, List.dropWhile_map]
  rfl

/-- The two overlap checks are those of `RangeList`. -/
theorem checkNeighbours_map {before after : List ProgressRange} {incoming : CompletedRange} :
    RangeList.checkNeighbours (before.map ProgressRange.toInterval)
        (after.map ProgressRange.toInterval) incoming = .ok () ↔
      before.getLast?.any (fun previous => previous.end > incoming.begin) = false ∧
        after.head?.any (fun next => next.begin < incoming.end) = false := by
  have hprevious : (before.map ProgressRange.toInterval).getLast?.any
      (fun previous => previous.end > incoming.begin) =
        before.getLast?.any fun previous => previous.end > incoming.begin := by
    rw [List.getLast?_map, Option.any_map]
  have hnext : (after.map ProgressRange.toInterval).head?.any
      (fun next => next.begin < incoming.end) =
        after.head?.any fun next => next.begin < incoming.end := by
    rw [List.head?_map, Option.any_map]
  rw [RangeList.checkNeighbours, hprevious, hnext]
  cases before.getLast?.any fun previous => previous.end > incoming.begin with
  | true => simp
  | false =>
      cases after.head?.any fun next => next.begin < incoming.end with
      | true => simp
      | false => simp

/-- The checks pass exactly on a range that avoids the bytes held. -/
theorem checks_iff (h : Ordered p.intervals) (hlength : 0 < length) :
    ((p.halves offset).1.getLast?.any (fun previous => previous.end > offset) = false ∧
      (p.halves offset).2.head?.any (fun next => next.begin < offset + length) = false) ↔
      ∀ x ∈ Set.Ico offset (offset + length), x ∉ covered p.intervals := by
  obtain ⟨hsplit, hlt, hge⟩ := RangeList.lowerBoundBegin_spec h offset
  rw [intervals_halves] at hsplit hlt hge
  rw [← hsplit] at h
  have hchecks := @checkNeighbours_map (p.halves offset).1 (p.halves offset).2
    ⟨offset, offset + length⟩
  rw [← hchecks, RangeList.checkNeighbours_eq_ok h,
    RangeList.neighbours_iff_disjoint ⟨offset, offset + length⟩ h
      (show offset < offset + length by omega) hlt hge, hsplit, Set.disjoint_left]
  exact ⟨fun hout x hx hin => hout hin hx, fun hout x hin hx => hout x hx hin⟩

/-- When a frame is accepted. -/
def Fits (p : TransferProgress) (offset length : Nat) : Prop :=
  0 < length ∧ offset + length ≤ p.totalSize ∧
    ∀ x ∈ Set.Ico offset (offset + length), x ∉ covered p.intervals

/-- The progress after an accepted frame. -/
def recorded (p : TransferProgress) (chunkId offset length : Nat) : TransferProgress :=
  { p with
    ranges := (p.halves offset).1 ++ ⟨⟨offset, offset + length⟩, chunkId⟩ :: (p.halves offset).2
    bytesCompleted := p.bytesCompleted + length
    lastError := .none }

theorem recordFrame_of_fits (hstarted : p.started = true) (h : Ordered p.intervals)
    (hfits : p.Fits offset length) :
    p.recordFrame chunkId offset length = (.ok (), p.recorded chunkId offset length) := by
  obtain ⟨hlength, hbound, hnew⟩ := hfits
  obtain ⟨hprevious, hnext⟩ := (checks_iff h hlength).mpr hnew
  unfold halves at hprevious hnext
  rw [recordFrame, if_neg (by simp [hstarted]), if_neg (by omega), if_neg (by omega)]
  simp only [hprevious, hnext, Bool.false_eq_true, if_false]
  rfl

theorem recordFrame_of_not_fits (hstarted : p.started = true) (h : Ordered p.intervals)
    (hfits : ¬p.Fits offset length) :
    ∃ status kind, p.recordFrame chunkId offset length =
      (.error status, { p with lastError := kind }) := by
  rw [recordFrame, if_neg (by simp [hstarted])]
  by_cases hlength : length = 0
  · exact ⟨_, _, if_pos hlength⟩
  · rw [if_neg hlength]
    by_cases hbound : offset > p.totalSize ∨ length > p.totalSize - offset
    · exact ⟨_, _, if_pos hbound⟩
    · rw [if_neg hbound]
      have hchecks := mt (checks_iff h (Nat.pos_of_ne_zero hlength)).mp
        fun hnew => hfits ⟨Nat.pos_of_ne_zero hlength, by omega, hnew⟩
      unfold halves at hchecks
      by_cases hprevious : (p.ranges.span fun range => range.begin < offset).1.getLast?.any
          (fun previous => previous.end > offset) = true
      · exact ⟨_, _, if_pos hprevious⟩
      · refine ⟨_, _, (if_neg hprevious).trans (if_pos ?_)⟩
        by_contra hnext
        exact hchecks ⟨Bool.not_eq_true _ ▸ hprevious, Bool.not_eq_true _ ▸ hnext⟩

/-- An accepted frame adds its range and keeps the order. -/
theorem recorded_intervals (h : Ordered p.intervals) (hfits : p.Fits offset length) :
    Ordered (p.recorded chunkId offset length).intervals ∧
      covered (p.recorded chunkId offset length).intervals =
        covered p.intervals ∪ Set.Ico offset (offset + length) := by
  obtain ⟨hlength, -, hnew⟩ := hfits
  obtain ⟨hsplit, -, -⟩ := RangeList.lowerBoundBegin_spec h offset
  rw [intervals_halves] at hsplit
  have hchecks := (@checkNeighbours_map _ _ ⟨offset, offset + length⟩).mpr
    ((checks_iff h hlength).mpr hnew)
  rw [← hsplit] at h
  obtain ⟨hbefore, hafter⟩ := (RangeList.checkNeighbours_eq_ok h).mp hchecks
  have hintervals : (p.recorded chunkId offset length).intervals =
      (p.halves offset).1.map ProgressRange.toInterval ++
        ⟨offset, offset + length⟩ :: (p.halves offset).2.map ProgressRange.toInterval := by
    rw [intervals, recorded, List.map_append, List.map_cons]
  rw [hintervals]
  refine ⟨h.insert (show offset < offset + length by omega) hbefore hafter, ?_⟩
  rw [← hsplit, covered_append, covered_append, covered_cons, ← Set.union_assoc,
    Set.union_right_comm]

end Frames

/-! ### The walk of `finish` -/

/-- The walk gets through exactly when the ranges fill one whole interval. -/
theorem walk_eq_some {ranges : List ProgressRange} {lo hi : Nat}
    (h : Ordered (ranges.map ProgressRange.toInterval)) :
    walk lo ranges = some hi ↔
      lo ≤ hi ∧ covered (ranges.map ProgressRange.toInterval) = Set.Ico lo hi := by
  induction ranges generalizing lo with
  | nil =>
      simp only [walk, Option.some.injEq, List.map_nil, covered_nil]
      constructor
      · rintro rfl
        exact ⟨le_refl _, (Set.Ico_self _).symm⟩
      · rintro ⟨hle, hempty⟩
        exact le_antisymm hle (Set.Ico_eq_empty_iff.mp hempty.symm |> not_lt.mp)
  | cons r ranges ih =>
      rw [List.map_cons] at h ⊢
      obtain ⟨hr, hafter, hranges⟩ := ordered_cons.mp h
      rw [walk]
      split
      · rename_i hgap
        refine ⟨fun hnone => (by cases hnone), ?_⟩
        rintro ⟨-, hcovered⟩
        exact absurd (h.head_of_covered_Ico hcovered).1 hgap
      · rename_i hbegin
        rw [not_not] at hbegin
        rw [ih hranges]
        constructor
        · rintro ⟨hle, hcovered⟩
          refine ⟨by omega, ?_⟩
          rw [covered_cons, hcovered, ← hbegin]
          exact Set.Ico_union_Ico_eq_Ico hr.le hle
        · rintro ⟨-, hcovered⟩
          exact (h.head_of_covered_Ico hcovered).2

/-! ### The simulation -/

/-- Both records hold the same bytes and the same count. -/
structure Simulates (p : TransferProgress) (l : RangeList) (totalSize : Nat) : Prop where
  begun : p.started = true
  size : p.totalSize = totalSize
  inOrder : Ordered p.intervals
  wellFormed : l.WellFormed totalSize
  bytes : covered p.intervals = covered l.ranges
  count : p.bytesCompleted = l.bytesCompleted

section Simulation

variable {p p' : TransferProgress} {l : RangeList} {totalSize : Nat}

theorem Simulates.start (p : TransferProgress) (totalSize : Nat) :
    Simulates (p.begin totalSize) RangeList.empty totalSize :=
  ⟨rfl, rfl, Ordered.nil, RangeList.WellFormed.empty totalSize, rfl, rfl⟩

/-- The kind of the last error is no part of the simulation. -/
theorem Simulates.lastError (h : Simulates p l totalSize) (kind : TransferProgressError) :
    Simulates { p with lastError := kind } l totalSize :=
  ⟨h.begun, h.size, h.inOrder, h.wellFormed, h.bytes, h.count⟩

theorem Simulates.fits_iff (h : Simulates p l totalSize) {offset length : Nat} :
    p.Fits offset length ↔ l.Accepted totalSize (.insert offset length) := by
  rw [Fits, h.size, h.bytes]
  rfl

/-- **One frame** is accepted by both or by neither, and the records still agree
after it. -/
theorem Simulates.recordFrame (h : Simulates p l totalSize) (chunkId offset length : Nat) :
    isOk (p.recordFrame chunkId offset length).1 = isOk (l.insert offset length totalSize) ∧
      Simulates (p.recordFrame chunkId offset length).2
        (l.after totalSize (.insert offset length)) totalSize := by
  cases hrun : l.run totalSize (.insert offset length) with
  | ok l' =>
      obtain ⟨haccepted, hl', hcovered⟩ := h.wellFormed.run_ok hrun
      have hfits := h.fits_iff.mpr haccepted
      obtain ⟨hordered, hbytes⟩ := @recorded_intervals _ chunkId _ _ h.inOrder hfits
      have hcount := (RangeList.insert_spec h.wellFormed hrun).2.2
      rw [recordFrame_of_fits h.begun h.inOrder hfits, RangeList.after_ok hrun]
      have hinsert : l.insert offset length totalSize = .ok l' := hrun
      rw [hinsert]
      refine ⟨rfl, h.begun, h.size, hordered, hl', ?_, ?_⟩
      · rw [hbytes, hcovered, h.bytes]
        rfl
      · show p.bytesCompleted + length = l'.bytesCompleted
        rw [hcount, h.count]
  | error e =>
      have hfits : ¬p.Fits offset length := by
        intro hfits
        obtain ⟨l', hok⟩ := h.wellFormed.run_of_accepted (h.fits_iff.mp hfits)
        rw [hrun] at hok
        cases hok
      obtain ⟨status, kind, hfail⟩ := @recordFrame_of_not_fits _ chunkId _ _ h.begun
        h.inOrder hfits
      have hinsert : l.insert offset length totalSize = .error e := hrun
      rw [hfail, RangeList.after_error hrun, hinsert]
      exact ⟨rfl, h.lastError kind⟩

/-- `finish` only touches the kind of the last error. -/
theorem finish_eq (p : TransferProgress) : ∃ kind, p.finish.2 = { p with lastError := kind } := by
  unfold finish
  split
  · exact ⟨_, rfl⟩
  · split
    · split
      · exact ⟨_, rfl⟩
      · exact ⟨_, rfl⟩
    · split
      · exact ⟨_, rfl⟩
      · split
        · exact ⟨_, rfl⟩
        · exact ⟨_, rfl⟩

/-- A full list is one range, or none for an empty transfer. -/
theorem bytesCompleted_of_full (h : l.WellFormed totalSize)
    (hfull : covered l.ranges = Set.Ico 0 totalSize) : l.bytesCompleted = totalSize := by
  rw [h.bytes_eq]
  rcases Nat.eq_zero_or_pos totalSize with rfl | hpos
  · rw [h.canonical.eq_of_covered_eq Canonical.nil (by rw [hfull, Set.Ico_self, covered_nil])]
    rfl
  · have hone : Canonical [(⟨0, totalSize⟩ : CompletedRange)] :=
      canonical_cons.mpr ⟨hpos, by simp, Canonical.nil⟩
    rw [h.canonical.eq_of_covered_eq hone (by rw [hfull]; simp)]
    simp

theorem Simulates.finish (h : Simulates p l totalSize) :
    isOk p.finish.1 = true ↔ l.missingRanges totalSize = [] := by
  rw [RangeList.missingRanges_eq_nil_iff h.wellFormed, ← h.bytes]
  have hcount : covered p.intervals = Set.Ico 0 totalSize → p.bytesCompleted = totalSize := by
    intro hfull
    rw [h.count]
    exact bytesCompleted_of_full h.wellFormed (h.bytes ▸ hfull)
  rw [TransferProgress.finish, if_neg (by simp [h.begun]), h.size]
  split
  · -- an empty transfer
    rename_i hzero
    subst hzero
    rw [Set.Ico_self]
    split
    · rename_i hheld
      refine ⟨fun hok => (by cases hok), fun hempty => ?_⟩
      have hranges : p.ranges = [] := by
        cases hcases : p.ranges with
        | nil => rfl
        | cons r ranges =>
            have hin : r.begin ∈ covered p.intervals :=
              ⟨r.toInterval, by simp [intervals, hcases], le_refl _,
                h.inOrder.nonempty r.toInterval (by simp [intervals, hcases])⟩
            rw [hempty] at hin
            cases hin
      have hzero := hcount (by rw [hempty, Set.Ico_self])
      rcases hheld with hheld | hheld
      · exact absurd hranges hheld
      · exact absurd hzero hheld
    · rename_i hnone
      rw [not_or, not_not, not_not] at hnone
      refine ⟨fun _ => ?_, fun _ => rfl⟩
      rw [intervals, hnone.1, List.map_nil, covered_nil]
  · cases hwalk : walk 0 p.ranges with
    | none =>
        refine ⟨fun hok => (by cases hok), fun hfull => ?_⟩
        rw [(walk_eq_some h.inOrder).mpr ⟨Nat.zero_le totalSize, hfull⟩] at hwalk
        cases hwalk
    | some expected =>
        have hcovered := ((walk_eq_some h.inOrder).mp hwalk).2
        simp only
        split
        · rename_i hshort
          refine ⟨fun hok => (by cases hok), fun hfull => ?_⟩
          have hexpected := (walk_eq_some h.inOrder).mpr ⟨Nat.zero_le totalSize, hfull⟩
          rw [hwalk] at hexpected
          rcases hshort with hshort | hshort
          · exact absurd (Option.some.inj hexpected) hshort
          · exact absurd (hcount hfull) hshort
        · rename_i hfull
          rw [not_or, not_not, not_not] at hfull
          rw [hfull.1] at hcovered
          exact ⟨fun _ => hcovered, fun _ => rfl⟩

end Simulation

/-! ### Whole runs -/

inductive Action
  | recordFrame (chunkId offset length : Nat)
  | finish

/-- Both records of one transfer, given the same ranges. -/
def records (totalSize : Nat) : System (TransferProgress × RangeList) Action where
  initial s := ∃ p : TransferProgress, s = (p.begin totalSize, RangeList.empty)
  step action s s' :=
    match action with
    | .recordFrame chunkId offset length =>
        s' = ((s.1.recordFrame chunkId offset length).2,
          s.2.after totalSize (.insert offset length))
    | .finish => s' = (s.1.finish.2, s.2)

theorem simulates_of_reachable {totalSize : Nat} {s : TransferProgress × RangeList}
    (h : (records totalSize).Reachable s) : Simulates s.1 s.2 totalSize := by
  apply h.invariant
  · rintro s ⟨p, rfl⟩
    exact Simulates.start p totalSize
  · rintro action s s' - hs hstep
    cases action with
    | recordFrame chunkId offset length =>
        obtain rfl : s' = _ := hstep
        exact (hs.recordFrame chunkId offset length).2
    | finish =>
        obtain rfl : s' = _ := hstep
        obtain ⟨kind, hkind⟩ := finish_eq s.1
        show Simulates s.1.finish.2 s.2 totalSize
        rw [hkind]
        exact hs.lastError kind

/-- **`TransferProgress` simulates `RangeList`**: on the same ranges both accept
and reject alike and count alike, and `finish` succeeds when nothing is missing. -/
theorem progress_simulates_rangeList {totalSize : Nat} {p : TransferProgress} {l : RangeList}
    (h : (records totalSize).Reachable (p, l)) :
    p.bytesCompleted = l.bytesCompleted ∧
      (∀ chunkId offset length : Nat,
        isOk (p.recordFrame chunkId offset length).1 = isOk (l.insert offset length totalSize) ∧
        (p.recordFrame chunkId offset length).2.bytesCompleted =
          (l.after totalSize (.insert offset length)).bytesCompleted) ∧
      (isOk p.finish.1 = true ↔ l.missingRanges totalSize = []) := by
  have hs := simulates_of_reachable h
  refine ⟨hs.count, fun chunkId offset length => ?_, hs.finish⟩
  obtain ⟨hok, hs'⟩ := hs.recordFrame chunkId offset length
  exact ⟨hok, hs'.count⟩

theorem progress_simulates_rangeList_half :
    isOk (⟨8, 4, .none, true, [⟨⟨0, 4⟩, 7⟩]⟩ : TransferProgress).finish.1 = true ↔
      (⟨[⟨0, 4⟩], 4⟩ : RangeList).missingRanges 8 = [] := by
  have hstart : (records 8).Reachable (({} : TransferProgress).begin 8, RangeList.empty) :=
    .initial ⟨{}, rfl⟩
  have hstep : (records 8).step (.recordFrame 7 0 4)
      (({} : TransferProgress).begin 8, RangeList.empty)
      (⟨8, 4, .none, true, [⟨⟨0, 4⟩, 7⟩]⟩, ⟨[⟨0, 4⟩], 4⟩) := rfl
  exact (progress_simulates_rangeList (.step hstart hstep)).2.2

end TransferProgress

end GridFlux
