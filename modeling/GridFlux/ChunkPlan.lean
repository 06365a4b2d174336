/-
GridFlux/ChunkPlan.lean

The planner and the receiver's range check in 64-bit arithmetic.

`Planner` computes with natural numbers.  Here `planChunks` and
`validateExpectedChunkRange` are written once more with the wrapping operations
of `std::uint64_t`; the loop ends because the offset it adds never wraps
(`toNat_nextOffset`).  The two levels agree (`planChunks64_refines`,
`validateExpectedChunkRange64_eq`), and the receiver accepts exactly the chunks
of the plan (`chunkPlan_exact`).
-/
import GridFlux.FileTransferServer
import GridFlux.Planner

namespace GridFlux

open HalfOpen FileTransferServer

structure ChunkRange64 where
  chunkId : UInt64
  offset : UInt64
  length : UInt64
  streamId : UInt32
deriving DecidableEq, Repr

def ChunkRange64.toChunkRange (chunk : ChunkRange64) : ChunkRange :=
  ⟨chunk.chunkId.toNat, chunk.offset.toNat, chunk.length.toNat, chunk.streamId.toNat⟩

/-! ### Arithmetic -/

/-- `std::min`. -/
def stdMin (a b : UInt64) : UInt64 := if b < a then b else a

theorem toNat_stdMin (a b : UInt64) : (stdMin a b).toNat = min a.toNat b.toNat := by
  rw [stdMin]
  by_cases h : b < a
  · rw [if_pos h, Nat.min_eq_right (Nat.le_of_lt (UInt64.lt_iff_toNat_lt.mp h))]
  · have hle := Nat.le_of_not_lt fun hlt => h (UInt64.lt_iff_toNat_lt.mpr hlt)
    rw [if_neg h, Nat.min_eq_left hle]

/-- The length of the chunk at an offset inside the file. -/
theorem toNat_chunkLength {fileSize chunkSize offset : UInt64} (h : offset < fileSize) :
    (stdMin chunkSize (fileSize - offset)).toNat =
      min chunkSize.toNat (fileSize.toNat - offset.toNat) := by
  rw [toNat_stdMin, UInt64.toNat_sub_of_le _ _ (UInt64.le_of_lt h)]

/-- The next offset does not wrap: it lies in the file. -/
theorem toNat_nextOffset {fileSize chunkSize offset : UInt64} (h : offset < fileSize) :
    (offset + stdMin chunkSize (fileSize - offset)).toNat =
      offset.toNat + min chunkSize.toNat (fileSize.toNat - offset.toNat) := by
  rw [UInt64.toNat_add, toNat_chunkLength h]
  apply Nat.mod_eq_of_lt
  have hlt := UInt64.lt_iff_toNat_lt.mp h
  have hsize := fileSize.toNat_lt
  omega

theorem toNat_ne_zero {n : UInt64} (h : n ≠ 0) : n.toNat ≠ 0 :=
  fun hzero => h (UInt64.toNat_inj.mp hzero)

/-! ### The planner -/

/-- The loop of `planChunks`. -/
def planWhile (fileSize chunkSize : UInt64) (connections : UInt32) (hchunk : chunkSize ≠ 0)
    (offset chunkId : UInt64) : List ChunkRange64 :=
  if h : offset < fileSize then
    let length := stdMin chunkSize (fileSize - offset)
    ⟨chunkId, offset, length, (chunkId % connections.toUInt64).toUInt32⟩ ::
      planWhile fileSize chunkSize connections hchunk (offset + length) (chunkId + 1)
  else []
termination_by fileSize.toNat - offset.toNat
decreasing_by
  have hlt := UInt64.lt_iff_toNat_lt.mp h
  have hpos := Nat.pos_of_ne_zero (toNat_ne_zero hchunk)
  show fileSize.toNat - (offset + stdMin chunkSize (fileSize - offset)).toNat < _
  rw [toNat_nextOffset h]
  omega

def planChunks64 (fileSize chunkSize : UInt64) (connections : UInt32) :
    Except Status (List ChunkRange64) :=
  if hchunk : chunkSize = 0 then
    .error (.invalidArgument (ascii "chunk size must be greater than zero"))
  else do
    require (¬(connections = 0 ∨ connections > 64))
      (.invalidArgument (ascii "connections must be in range 1..64"))
    return planWhile fileSize chunkSize connections hchunk 0 0

theorem planWhile_inside {fileSize chunkSize : UInt64} {connections : UInt32}
    (hchunk : chunkSize ≠ 0) {offset chunkId : UInt64} (h : offset < fileSize) :
    planWhile fileSize chunkSize connections hchunk offset chunkId =
      ⟨chunkId, offset, stdMin chunkSize (fileSize - offset),
          (chunkId % connections.toUInt64).toUInt32⟩ ::
        planWhile fileSize chunkSize connections hchunk
          (offset + stdMin chunkSize (fileSize - offset)) (chunkId + 1) := by
  rw [planWhile, dif_pos h]

theorem planWhile_end {fileSize chunkSize : UInt64} {connections : UInt32}
    (hchunk : chunkSize ≠ 0) {offset chunkId : UInt64} (h : ¬offset < fileSize) :
    planWhile fileSize chunkSize connections hchunk offset chunkId = [] := by
  rw [planWhile, dif_neg h]

/-- **Loop refinement.**  With rounds enough for the rest of the file, and a
chunk id that has not overtaken the offset, both loops make the same chunks. -/
theorem planWhile_refines {fileSize chunkSize : UInt64} {connections : UInt32}
    (hchunk : chunkSize ≠ 0) (hconnections : connections.toNat ≠ 0) {rounds : Nat}
    {offset chunkId : UInt64} (hrounds : fileSize.toNat ≤ offset.toNat + rounds * chunkSize.toNat)
    (hid : chunkId.toNat ≤ offset.toNat) :
    (planWhile fileSize chunkSize connections hchunk offset chunkId).map
        ChunkRange64.toChunkRange =
      planLoop fileSize.toNat chunkSize.toNat connections.toNat rounds offset.toNat
        chunkId.toNat := by
  induction rounds generalizing offset chunkId with
  | zero =>
      rw [planWhile_end]
      · rfl
      · rw [UInt64.lt_iff_toNat_lt]
        omega
  | succ rounds ih =>
      rw [planLoop]
      by_cases h : offset < fileSize
      · have hlt := UInt64.lt_iff_toNat_lt.mp h
        have hsize := fileSize.toNat_lt
        have hpos := Nat.pos_of_ne_zero (toNat_ne_zero hchunk)
        have hnext : (chunkId + 1).toNat = chunkId.toNat + 1 := by
          rw [UInt64.toNat_add]
          exact Nat.mod_eq_of_lt (show chunkId.toNat + 1 < 2 ^ 64 by omega)
        have hstream : ((chunkId % connections.toUInt64).toUInt32).toNat =
            chunkId.toNat % connections.toNat := by
          rw [UInt64.toNat_toUInt32, UInt64.toNat_mod, UInt32.toNat_toUInt64]
          have hmod := Nat.mod_lt chunkId.toNat (Nat.pos_of_ne_zero hconnections)
          exact Nat.mod_eq_of_lt (hmod.trans connections.toNat_lt)
        rw [planWhile_inside hchunk h, if_pos hlt, List.map_cons, ih, toNat_nextOffset h, hnext]
        · apply congrArg₂ _ _ rfl
          simp only [ChunkRange64.toChunkRange, hstream, toNat_chunkLength h]
        · rw [toNat_nextOffset h]
          rw [Nat.succ_mul] at hrounds
          omega
        · rw [toNat_nextOffset h, hnext]
          omega
      · rw [planWhile_end hchunk h, if_neg (fun hlt => h (UInt64.lt_iff_toNat_lt.mpr hlt))]
        rfl

/-- **The planner computes without wrapping**: in natural numbers it makes the
same plan, or the same error. -/
theorem planChunks64_refines (fileSize chunkSize : UInt64) (connections : UInt32) :
    (planChunks64 fileSize chunkSize connections).map (List.map ChunkRange64.toChunkRange) =
      planChunks fileSize.toNat chunkSize.toNat connections.toNat := by
  rw [planChunks64, planChunks]
  by_cases hchunk : chunkSize = 0
  · subst hchunk
    rfl
  · have hiff : (connections = 0 ∨ connections > 64) ↔
        (connections.toNat = 0 ∨ connections.toNat > kMaxConnections) := by
      rw [← UInt32.toNat_inj]
      exact Iff.or Iff.rfl UInt32.lt_iff_toNat_lt
    rw [dif_neg hchunk, require_pos (toNat_ne_zero hchunk), ok_bind]
    by_cases hconnections : connections = 0 ∨ connections > 64
    · rw [require_neg (not_not.mpr hconnections), require_neg (not_not.mpr (hiff.mp hconnections))]
      rfl
    · have hconnections' : ¬(connections.toNat = 0 ∨ connections.toNat > kMaxConnections) :=
        fun h => hconnections (hiff.mpr h)
      rw [require_pos hconnections, require_pos hconnections', ok_bind, ok_bind]
      apply congrArg Except.ok
      rw [planWhile_refines hchunk (fun hzero => hconnections (hiff.mpr (Or.inl hzero)))]
      · rfl
      · have hdiv := Nat.div_add_mod fileSize.toNat chunkSize.toNat
        have hmod := Nat.mod_lt fileSize.toNat (Nat.pos_of_ne_zero (toNat_ne_zero hchunk))
        rw [chunkCount, Nat.add_mul, Nat.mul_comm]
        split
        · omega
        · rw [Nat.one_mul]
          omega
      · exact Nat.le_refl _

theorem planChunks_of_planChunks64 {fileSize chunkSize : UInt64} {connections : UInt32}
    {chunks : List ChunkRange64} (h : planChunks64 fileSize chunkSize connections = .ok chunks) :
    planChunks fileSize.toNat chunkSize.toNat connections.toNat =
      .ok (chunks.map ChunkRange64.toChunkRange) := by
  rw [← planChunks64_refines, h]
  rfl

/-! ### The receiver's check -/

/-- `validateExpectedChunkRange`. -/
def validateExpectedChunkRange64 (init : SessionInitPayload) (payload : ChunkCompletePayload) :
    Except TransferError Unit :=
  if init.checksumAlgorithm = .none then .ok ()
  else do
    check (¬payload.chunkId > 18446744073709551615 / init.chunkSize) .rangeOutOfBounds
      "chunk_id overflows expected offset"
    let expectedOffset := payload.chunkId * init.chunkSize
    check (¬(expectedOffset ≥ init.totalSize ∧ init.totalSize ≠ 0)) .rangeOutOfBounds
      "chunk_id exceeds transfer size"
    check (init.totalSize ≠ 0) .rangeOutOfBounds "zero-byte transfer must not carry chunks"
    let expectedLength := stdMin init.chunkSize (init.totalSize - expectedOffset)
    check (¬(payload.offset ≠ expectedOffset ∨ payload.length ≠ expectedLength))
      .rangeOutOfBounds "chunk complete range does not match chunk plan"

/-- A chunk id that passes the first test does not wrap the product. -/
theorem toNat_expectedOffset {chunkId chunkSize : UInt64}
    (h : ¬chunkId > 18446744073709551615 / chunkSize) :
    (chunkId * chunkSize).toNat = chunkId.toNat * chunkSize.toNat := by
  have hle : chunkId.toNat ≤ 18446744073709551615 / chunkSize.toNat := by
    have := Nat.le_of_not_lt (fun hlt => h (UInt64.lt_iff_toNat_lt.mpr hlt))
    rwa [UInt64.toNat_div] at this
  rw [UInt64.toNat_mul]
  apply Nat.mod_eq_of_lt
  have hmul := Nat.mul_le_mul_right chunkSize.toNat hle
  have hdiv := Nat.div_mul_le_self 18446744073709551615 chunkSize.toNat
  omega

/-- The check computes without wrapping as well. -/
theorem validateExpectedChunkRange64_eq (active : ActiveTransfer)
    (payload : ChunkCompletePayload) :
    validateExpectedChunkRange64 active.init payload =
      validateExpectedChunkRange active payload := by
  rw [validateExpectedChunkRange64, validateExpectedChunkRange]
  split
  · rfl
  · by_cases hguard : payload.chunkId > 18446744073709551615 / active.init.chunkSize
    · have hguard' : ¬payload.chunkId.toNat ≤ (2 ^ 64 - 1) / active.init.chunkSize.toNat := by
        rw [← UInt64.toNat_ofNat_of_lt (show 2 ^ 64 - 1 < 2 ^ 64 by decide), ← UInt64.toNat_div]
        exact not_le_of_gt (UInt64.lt_iff_toNat_lt.mp hguard)
      simp only [check, require_neg (not_not.mpr hguard), require_neg hguard', error_bind]
    · have hguard' : payload.chunkId.toNat ≤ (2 ^ 64 - 1) / active.init.chunkSize.toNat := by
        rw [← UInt64.toNat_ofNat_of_lt (show 2 ^ 64 - 1 < 2 ^ 64 by decide), ← UInt64.toNat_div]
        exact le_of_not_gt fun h => hguard (UInt64.lt_iff_toNat_lt.mpr h)
      simp only [check, require_pos hguard, require_pos hguard', ok_bind]
      have hoffset := toNat_expectedOffset hguard
      have hzero : active.init.totalSize = 0 ↔ active.init.totalSize.toNat = 0 :=
        UInt64.toNat_inj.symm
      have hend : payload.chunkId * active.init.chunkSize ≥ active.init.totalSize ↔
          payload.chunkId.toNat * active.init.chunkSize.toNat ≥ active.init.totalSize.toNat := by
        rw [← hoffset]
        exact UInt64.le_iff_toNat_le
      by_cases hpast : payload.chunkId * active.init.chunkSize ≥ active.init.totalSize ∧
          active.init.totalSize ≠ 0
      · have hpast' := (and_congr hend (not_congr hzero)).mp hpast
        simp only [require_neg (not_not.mpr hpast), require_neg (not_not.mpr hpast'), error_bind]
      · have hpast' := not_congr (and_congr hend (not_congr hzero)) |>.mp hpast
        simp only [require_pos hpast, require_pos hpast', ok_bind]
        by_cases hempty : active.init.totalSize = 0
        · have hempty' := hzero.mp hempty
          simp only [require_neg (not_not.mpr hempty), require_neg (not_not.mpr hempty'),
            error_bind]
        · have hempty' := (not_congr hzero).mp hempty
          have hinside : payload.chunkId * active.init.chunkSize < active.init.totalSize :=
            UInt64.not_le.mp fun hge => hpast ⟨hge, hempty⟩
          simp only [require_pos hempty, require_pos hempty', ok_bind]
          have hplace : payload.offset = payload.chunkId * active.init.chunkSize ↔
              payload.offset.toNat = payload.chunkId.toNat * active.init.chunkSize.toNat := by
            rw [← UInt64.toNat_inj, hoffset]
          have hlength : payload.length = stdMin active.init.chunkSize
                (active.init.totalSize - payload.chunkId * active.init.chunkSize) ↔
              payload.length.toNat = min active.init.chunkSize.toNat
                (active.init.totalSize.toNat -
                  payload.chunkId.toNat * active.init.chunkSize.toNat) := by
            rw [← UInt64.toNat_inj, toNat_chunkLength hinside, hoffset]
          exact require_congr (not_congr (or_congr (not_congr hplace) (not_congr hlength)))

/-- **What the receiver accepts**: with a checksum, the chunks that begin
inside the file, at their place and of full length. -/
theorem validateExpectedChunkRange_eq_ok {active : ActiveTransfer}
    {payload : ChunkCompletePayload} (halgorithm : active.init.checksumAlgorithm ≠ .none)
    (hchunk : active.init.chunkSize ≠ 0) :
    validateExpectedChunkRange active payload = .ok () ↔
      payload.chunkId.toNat * active.init.chunkSize.toNat < active.init.totalSize.toNat ∧
      payload.offset.toNat = payload.chunkId.toNat * active.init.chunkSize.toNat ∧
      payload.length.toNat = min active.init.chunkSize.toNat
        (active.init.totalSize.toNat - payload.chunkId.toNat * active.init.chunkSize.toNat) := by
  rw [validateExpectedChunkRange, if_neg halgorithm]
  simp only [bind_eq_ok, check_eq_ok, exists_const]
  have hpos := Nat.pos_of_ne_zero (toNat_ne_zero hchunk)
  constructor
  · rintro ⟨-, hinside, hempty, hplace⟩
    exact ⟨by omega, by omega, by omega⟩
  · rintro ⟨hinside, hoffset, hlength⟩
    refine ⟨?_, by omega, by omega, by omega⟩
    rw [Nat.le_div_iff_mul_le hpos]
    have hsize := active.init.totalSize.toNat_lt
    omega

/-! ### The plan is what the receiver accepts -/

/-- The ranges follow one another without a gap from `start` to `stop`, none of
them empty. -/
def Consecutive : Nat → Nat → List CompletedRange → Prop
  | start, stop, [] => start = stop
  | start, stop, r :: rs => r.begin = start ∧ start < r.end ∧ Consecutive r.end stop rs

theorem planWhile_consecutive {fileSize chunkSize : UInt64} {connections : UInt32}
    (hchunk : chunkSize ≠ 0) (offset chunkId : UInt64) (hle : offset ≤ fileSize) :
    Consecutive offset.toNat fileSize.toNat
      ((planWhile fileSize chunkSize connections hchunk offset chunkId).map fun chunk =>
        chunk.toChunkRange.range) := by
  fun_induction planWhile fileSize chunkSize connections hchunk offset chunkId with
  | case1 offset chunkId h length ih =>
      have hlt := UInt64.lt_iff_toNat_lt.mp h
      have hpos := Nat.pos_of_ne_zero (toNat_ne_zero hchunk)
      have hnext : (offset + length).toNat = offset.toNat + length.toNat := by
        rw [toNat_nextOffset h, toNat_chunkLength h]
      have hlength : length.toNat = min chunkSize.toNat (fileSize.toNat - offset.toNat) :=
        toNat_chunkLength h
      refine ⟨rfl, ?_, ?_⟩
      · show offset.toNat < offset.toNat + length.toNat
        omega
      · show Consecutive (offset.toNat + length.toNat) _ _
        rw [← hnext]
        apply ih
        rw [UInt64.le_iff_toNat_le, hnext]
        omega
  | case2 offset chunkId h =>
      exact Nat.le_antisymm (UInt64.le_iff_toNat_le.mp hle)
        (UInt64.le_iff_toNat_le.mp (UInt64.not_lt.mp h))

theorem Consecutive.covered {start stop : Nat} {rs : List CompletedRange}
    (h : Consecutive start stop rs) : start ≤ stop ∧ covered rs = Set.Ico start stop := by
  induction rs generalizing start with
  | nil =>
      obtain rfl : start = stop := h
      refine ⟨Nat.le_refl _, ?_⟩
      ext x
      simp [HalfOpen.covered]
  | cons r rs ih =>
      obtain ⟨hbegin, hlt, hrest⟩ := h
      obtain ⟨hle, hcovered⟩ := ih hrest
      refine ⟨hlt.le.trans hle, ?_⟩
      rw [covered_cons, hcovered, hbegin, Set.Ico_union_Ico_eq_Ico hlt.le hle]

variable {fileSize chunkSize : UInt64} {connections : UInt32} {chunks : List ChunkRange64}

theorem planChunks64_chunkSize (h : planChunks64 fileSize chunkSize connections = .ok chunks) :
    chunkSize ≠ 0 := by
  rintro rfl
  cases h

/-- The ranges of a plan, from 0 to the end of the file. -/
theorem planChunks64_consecutive
    (h : planChunks64 fileSize chunkSize connections = .ok chunks) :
    Consecutive 0 fileSize.toNat (chunks.map fun chunk => chunk.toChunkRange.range) := by
  have hchunk := planChunks64_chunkSize h
  rw [planChunks64, dif_neg hchunk] at h
  simp only [bind_eq_ok, require_eq_ok] at h
  obtain ⟨-, -, hchunks⟩ := h
  obtain rfl := Except.ok.inj hchunks
  exact planWhile_consecutive hchunk 0 0 UInt64.zero_le

/-- Chunk `i` of a plan. -/
theorem planChunks64_getElem (h : planChunks64 fileSize chunkSize connections = .ok chunks)
    {i : Nat} {chunk : ChunkRange64} (hi : chunks[i]? = some chunk) :
    i * chunkSize.toNat < fileSize.toNat ∧ chunk.toChunkRange =
      plannedChunk fileSize.toNat chunkSize.toNat connections.toNat i := by
  obtain ⟨hchunk, heq⟩ := planChunks_eq (planChunks_of_planChunks64 h)
  have hmap := congrArg (fun l => l[i]?) heq
  simp only [List.getElem?_map, hi, Option.map_some] at hmap
  obtain ⟨j, hj, hplanned⟩ := Option.map_eq_some_iff.mp hmap.symm
  obtain ⟨hlt, rfl⟩ := List.getElem?_eq_some_iff.mp hj
  rw [List.getElem_range] at hplanned
  rw [List.length_range, lt_chunkCount hchunk] at hlt
  exact ⟨hlt, hplanned.symm⟩

/-- The triples that a plan gives are those the receiver accepts. -/
theorem validateExpectedChunkRange_iff_planned
    (h : planChunks64 fileSize chunkSize connections = .ok chunks) {active : ActiveTransfer}
    (htotal : active.init.totalSize = fileSize) (hsize : active.init.chunkSize = chunkSize)
    (halgorithm : active.init.checksumAlgorithm = .crc32c) (payload : ChunkCompletePayload) :
    validateExpectedChunkRange active payload = .ok () ↔
      ∃ chunk ∈ chunks, payload.chunkId = chunk.chunkId ∧ payload.offset = chunk.offset ∧
        payload.length = chunk.length := by
  have hchunk := planChunks64_chunkSize h
  have hplan := planChunks_of_planChunks64 h
  rw [validateExpectedChunkRange_eq_ok (by rw [halgorithm]; decide) (by rw [hsize]; exact hchunk),
    htotal, hsize]
  constructor
  · rintro ⟨hinside, hoffset, hlength⟩
    have hmem := (mem_planChunks (c := plannedChunk fileSize.toNat chunkSize.toNat
      connections.toNat payload.chunkId.toNat) hplan).mpr ⟨hinside, rfl⟩
    obtain ⟨chunk, hc, heq⟩ := List.mem_map.mp hmem
    refine ⟨chunk, hc, ?_, ?_, ?_⟩
    · exact UInt64.toNat_inj.mp (congrArg ChunkRange.chunkId heq).symm
    · exact UInt64.toNat_inj.mp (hoffset.trans (congrArg ChunkRange.offset heq).symm)
    · exact UInt64.toNat_inj.mp (hlength.trans (congrArg ChunkRange.length heq).symm)
  · rintro ⟨chunk, hc, hid, hoffset, hlength⟩
    obtain ⟨hinside, heq⟩ := (mem_planChunks hplan).mp (List.mem_map_of_mem hc)
    rw [hid, hoffset, hlength]
    exact ⟨hinside, congrArg ChunkRange.offset heq, congrArg ChunkRange.length heq⟩

/-- **The chunk plan is exact, and is what the receiver accepts.**  For every
plan that the planner makes in 64-bit arithmetic: the ranges follow one another
from 0 to the end of the file; chunk `i` begins at `i` times the chunk size,
with no wrap in its offset or its end, and goes to stream `i` mod connections;
and with crc32c the receiver, whose test does not wrap either, accepts an id, an
offset and a length exactly when they are a chunk of the plan. -/
theorem chunkPlan_exact {fileSize chunkSize : UInt64} {connections : UInt32}
    {chunks : List ChunkRange64} (h : planChunks64 fileSize chunkSize connections = .ok chunks) :
    (Consecutive 0 fileSize.toNat (chunks.map fun chunk => chunk.toChunkRange.range) ∧
      covered (chunks.map fun chunk => chunk.toChunkRange.range) = Set.Ico 0 fileSize.toNat) ∧
    (∀ (i : Nat) (chunk : ChunkRange64), chunks[i]? = some chunk →
      chunk.chunkId.toNat = i ∧ chunk.offset.toNat = i * chunkSize.toNat ∧
      chunk.streamId.toNat = i % connections.toNat ∧
      (chunk.offset + chunk.length).toNat = chunk.offset.toNat + chunk.length.toNat ∧
      chunk.offset.toNat + chunk.length.toNat ≤ fileSize.toNat) ∧
    (∀ active : ActiveTransfer, active.init.totalSize = fileSize →
      active.init.chunkSize = chunkSize → active.init.checksumAlgorithm = .crc32c →
      ∀ payload : ChunkCompletePayload,
        validateExpectedChunkRange64 active.init payload =
          validateExpectedChunkRange active payload ∧
        (validateExpectedChunkRange active payload = .ok () ↔
          ∃ chunk ∈ chunks, payload.chunkId = chunk.chunkId ∧ payload.offset = chunk.offset ∧
            payload.length = chunk.length)) := by
  have hconsecutive := planChunks64_consecutive h
  refine ⟨⟨hconsecutive, hconsecutive.covered.2⟩, ?_, ?_⟩
  · intro i chunk hi
    obtain ⟨hinside, heq⟩ := planChunks64_getElem h hi
    have hoffset : chunk.offset.toNat = i * chunkSize.toNat := congrArg ChunkRange.offset heq
    have hlength : chunk.length.toNat = min chunkSize.toNat (fileSize.toNat - i * chunkSize.toNat) :=
      congrArg ChunkRange.length heq
    have hend : chunk.offset.toNat + chunk.length.toNat ≤ fileSize.toNat := by omega
    refine ⟨congrArg ChunkRange.chunkId heq, hoffset, congrArg ChunkRange.streamId heq, ?_, hend⟩
    rw [UInt64.toNat_add]
    exact Nat.mod_eq_of_lt (hend.trans_lt fileSize.toNat_lt)
  · intro active htotal hsize halgorithm payload
    exact ⟨validateExpectedChunkRange64_eq active payload,
      validateExpectedChunkRange_iff_planned h htotal hsize halgorithm payload⟩

/-- Ten bytes in chunks of four, for two streams. -/
theorem chunkPlan_exact_ten :
    Consecutive 0 10 [⟨0, 4⟩, ⟨4, 8⟩, ⟨8, 10⟩] := by
  have hplan : planChunks64 10 4 2 = .ok [⟨0, 0, 4, 0⟩, ⟨1, 4, 4, 1⟩, ⟨2, 8, 2, 0⟩] := by
    rw [planChunks64, dif_neg (by decide), require_pos (by decide),
      planWhile_inside _ (by decide), planWhile_inside _ (by decide),
      planWhile_inside _ (by decide), planWhile_end _ (by decide)]
    rfl
  exact (chunkPlan_exact hplan).1.1

end GridFlux
