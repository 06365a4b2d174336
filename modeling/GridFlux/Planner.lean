/-
GridFlux/Planner.lean

`core/chunk/chunk_planner.cpp`: a file is cut into chunks of one size, the last
one possibly shorter, and dealt out to the streams in turn.

Main results: chunk `i` of a plan is `plannedChunk i` (`planChunks_eq`), so a
range is in the plan exactly when its offset is its id times the chunk size and
inside the file (`mem_planChunks`).
-/
import Mathlib.Data.List.Nodup
import Mathlib.Data.List.Range
import GridFlux.RangeList

namespace GridFlux

open HalfOpen

structure ChunkRange where
  chunkId : Nat
  offset : Nat
  length : Nat
  streamId : Nat
deriving DecidableEq, Repr

def kMaxConnections : Nat := 64

/-- The loop of `planChunks`; each round takes one chunk off the file. -/
def planLoop (fileSize chunkSize connections : Nat) : Nat → Nat → Nat → List ChunkRange
  | 0, _, _ => []
  | rounds + 1, offset, chunkId =>
      if offset < fileSize then
        let length := min chunkSize (fileSize - offset)
        ⟨chunkId, offset, length, chunkId % connections⟩ ::
          planLoop fileSize chunkSize connections rounds (offset + length) (chunkId + 1)
      else []

/-- How many chunks `planChunks` reserves room for. -/
def chunkCount (fileSize chunkSize : Nat) : Nat :=
  fileSize / chunkSize + if fileSize % chunkSize = 0 then 0 else 1

/-- `planChunks`.  On a 64-bit platform a chunk count always fits a
`std::size_t`. -/
def planChunks (fileSize chunkSize connections : Nat) : Except Status (List ChunkRange) := do
  require (chunkSize ≠ 0) (.invalidArgument (ascii "chunk size must be greater than zero"))
  require (¬(connections = 0 ∨ connections > kMaxConnections))
    (.invalidArgument (ascii "connections must be in range 1..64"))
  return planLoop fileSize chunkSize connections (chunkCount fileSize chunkSize) 0 0

/-! ### What a plan looks like -/

/-- Chunk `i` of a plan. -/
def plannedChunk (fileSize chunkSize connections i : Nat) : ChunkRange :=
  ⟨i, i * chunkSize, min chunkSize (fileSize - i * chunkSize), i % connections⟩

/-- A chunk begins inside the file exactly when it is one of those counted. -/
theorem lt_chunkCount {fileSize chunkSize i : Nat} (hchunk : chunkSize ≠ 0) :
    i < chunkCount fileSize chunkSize ↔ i * chunkSize < fileSize := by
  have hdiv := Nat.div_add_mod fileSize chunkSize
  have hmod := Nat.mod_lt fileSize (Nat.pos_of_ne_zero hchunk)
  have hmul : i < fileSize / chunkSize ↔ i * chunkSize + chunkSize ≤ fileSize := by
    rw [← Nat.succ_le_iff, Nat.le_div_iff_mul_le (Nat.pos_of_ne_zero hchunk), Nat.succ_mul]
  rw [chunkCount]
  split
  · -- no rest: the last chunk ends at the end of the file
    rename_i hzero
    rw [hzero, Nat.add_zero] at hdiv
    constructor
    · intro h
      have := hmul.mp h
      omega
    · intro h
      rw [Nat.add_zero]
      refine lt_of_not_ge fun hge => ?_
      have := Nat.mul_le_mul_left chunkSize hge
      rw [hdiv, Nat.mul_comm] at this
      omega
  · rename_i hrest
    constructor
    · intro h
      have := Nat.mul_le_mul_left chunkSize (Nat.lt_succ_iff.mp h)
      rw [Nat.mul_comm] at this
      omega
    · intro h
      refine lt_of_not_ge fun hge => ?_
      have hmore := Nat.mul_le_mul_left chunkSize hge
      rw [Nat.mul_add, Nat.mul_one, Nat.mul_comm chunkSize i] at hmore
      omega

theorem planLoop_eq {fileSize chunkSize connections rounds i : Nat} (hchunk : chunkSize ≠ 0)
    (hrounds : i + rounds = chunkCount fileSize chunkSize) :
    planLoop fileSize chunkSize connections rounds (i * chunkSize) i =
      (List.range' i rounds).map (plannedChunk fileSize chunkSize connections) := by
  induction rounds generalizing i with
  | zero => rfl
  | succ rounds ih =>
      have hlt : i * chunkSize < fileSize := (lt_chunkCount hchunk).mp (by omega)
      rw [planLoop, if_pos hlt, List.range'_succ, List.map_cons]
      show plannedChunk fileSize chunkSize connections i :: planLoop _ _ _ _
        (i * chunkSize + min chunkSize (fileSize - i * chunkSize)) _ = _
      congr 1
      rcases rounds with - | rounds
      · rfl
      · -- there is a next chunk, so this one is of full size
        have hnext : (i + 1) * chunkSize < fileSize := (lt_chunkCount hchunk).mp (by omega)
        have hfull : i * chunkSize + min chunkSize (fileSize - i * chunkSize) =
            (i + 1) * chunkSize := by
          rw [Nat.succ_mul] at hnext ⊢
          omega
        rw [hfull]
        exact ih (by omega)

/-- **A plan** is the chunks that begin inside the file, in order. -/
theorem planChunks_eq {fileSize chunkSize connections : Nat} {chunks : List ChunkRange}
    (h : planChunks fileSize chunkSize connections = .ok chunks) :
    chunkSize ≠ 0 ∧ chunks = (List.range (chunkCount fileSize chunkSize)).map
      (plannedChunk fileSize chunkSize connections) := by
  simp only [planChunks, bind_eq_ok, require_eq_ok] at h
  obtain ⟨-, hchunk, -, -, hchunks⟩ := h
  refine ⟨hchunk, ?_⟩
  rw [← Except.ok.inj hchunks, List.range_eq_range']
  have hloop := @planLoop_eq fileSize chunkSize connections (chunkCount fileSize chunkSize) 0
    hchunk (Nat.zero_add _)
  rwa [Nat.zero_mul] at hloop

/-- Which ranges a plan consists of. -/
theorem mem_planChunks {fileSize chunkSize connections : Nat} {chunks : List ChunkRange}
    (h : planChunks fileSize chunkSize connections = .ok chunks) {c : ChunkRange} :
    c ∈ chunks ↔ c.chunkId * chunkSize < fileSize ∧
      c = plannedChunk fileSize chunkSize connections c.chunkId := by
  obtain ⟨hchunk, rfl⟩ := planChunks_eq h
  simp only [List.mem_map, List.mem_range, lt_chunkCount hchunk]
  constructor
  · rintro ⟨i, hi, rfl⟩
    exact ⟨hi, rfl⟩
  · rintro ⟨hi, heq⟩
    exact ⟨c.chunkId, hi, heq.symm⟩

theorem nodup_planChunks {fileSize chunkSize connections : Nat} {chunks : List ChunkRange}
    (h : planChunks fileSize chunkSize connections = .ok chunks) : chunks.Nodup := by
  obtain ⟨-, rfl⟩ := planChunks_eq h
  exact List.Nodup.map (fun i j hij => congrArg ChunkRange.chunkId hij) List.nodup_range

/-! ### A plan cuts the file up -/

/-- The bytes of a chunk. -/
def ChunkRange.range (chunk : ChunkRange) : CompletedRange :=
  ⟨chunk.offset, chunk.offset + chunk.length⟩

/-- What a chunk of a plan is like. -/
theorem planChunks_bounds {fileSize chunkSize connections : Nat} {chunks : List ChunkRange}
    (h : planChunks fileSize chunkSize connections = .ok chunks) {c : ChunkRange}
    (hc : c ∈ chunks) :
    c.range.begin < c.range.end ∧ c.range.end ≤ fileSize ∧ c.streamId < connections := by
  obtain ⟨hchunk, -⟩ := planChunks_eq h
  obtain ⟨hlt, heq⟩ := (mem_planChunks h).mp hc
  have hconnections : connections ≠ 0 := by
    simp only [planChunks, bind_eq_ok, require_eq_ok] at h
    obtain ⟨-, -, -, hconnections, -⟩ := h
    exact fun hzero => hconnections (Or.inl hzero)
  rw [heq]
  show c.chunkId * chunkSize < c.chunkId * chunkSize + min chunkSize (fileSize - c.chunkId * chunkSize) ∧
    c.chunkId * chunkSize + min chunkSize (fileSize - c.chunkId * chunkSize) ≤ fileSize ∧
    c.chunkId % connections < connections
  exact ⟨by omega, by omega, Nat.mod_lt _ (Nat.pos_of_ne_zero hconnections)⟩

/-- The chunks of a plan follow one another. -/
theorem separated_planChunks {fileSize chunkSize connections : Nat} {chunks : List ChunkRange}
    (h : planChunks fileSize chunkSize connections = .ok chunks) :
    Separated (chunks.map ChunkRange.range) := by
  obtain ⟨-, rfl⟩ := planChunks_eq h
  rw [List.map_map, Separated, List.pairwise_map]
  refine List.Pairwise.imp (fun {i j} (hij : i < j) => Or.inl ?_) List.pairwise_lt_range
  show i * chunkSize + min chunkSize (fileSize - i * chunkSize) ≤ j * chunkSize
  have hmul := Nat.mul_le_mul_right chunkSize hij
  rw [Nat.succ_mul] at hmul
  exact (Nat.add_le_add_left (Nat.min_le_left _ _) _).trans hmul

/-- Two chunks of a plan that share a byte are the same. -/
theorem planChunks_unique {fileSize chunkSize connections : Nat} {chunks : List ChunkRange}
    (h : planChunks fileSize chunkSize connections = .ok chunks) {c c' : ChunkRange}
    (hc : c ∈ chunks) (hc' : c' ∈ chunks) {x : Nat}
    (hx : x ∈ Set.Ico c.range.begin c.range.end)
    (hx' : x ∈ Set.Ico c'.range.begin c'.range.end) : c = c' := by
  have hrange : c.range = c'.range := (separated_planChunks h).owner_unique
    (List.mem_map_of_mem hc) (List.mem_map_of_mem hc') hx hx'
  have hoffset : c.offset = c'.offset := congrArg Interval.begin hrange
  obtain ⟨hchunk, -⟩ := planChunks_eq h
  obtain ⟨-, heq⟩ := (mem_planChunks h).mp hc
  obtain ⟨-, heq'⟩ := (mem_planChunks h).mp hc'
  rw [heq, heq'] at hoffset
  have hid : c.chunkId = c'.chunkId :=
    Nat.eq_of_mul_eq_mul_right (Nat.pos_of_ne_zero hchunk) hoffset
  rw [heq, heq', hid]

/-- Every byte of the file is in a chunk. -/
theorem covered_planChunks {fileSize chunkSize connections : Nat} {chunks : List ChunkRange}
    (h : planChunks fileSize chunkSize connections = .ok chunks) :
    covered (chunks.map ChunkRange.range) = Set.Ico 0 fileSize := by
  obtain ⟨hchunk, -⟩ := planChunks_eq h
  ext x
  constructor
  · rintro ⟨r, hr, hb, he⟩
    obtain ⟨c, hc, rfl⟩ := List.mem_map.mp hr
    exact ⟨Nat.zero_le _, he.trans_le (planChunks_bounds h hc).2.1⟩
  · rintro ⟨-, hx⟩
    -- the chunk of byte `x` is number `x / chunkSize`
    have hdiv := Nat.div_add_mod x chunkSize
    have hmod := Nat.mod_lt x (Nat.pos_of_ne_zero hchunk)
    rw [Nat.mul_comm] at hdiv
    refine ⟨(plannedChunk fileSize chunkSize connections (x / chunkSize)).range,
      List.mem_map_of_mem ((mem_planChunks h).mpr ⟨?_, rfl⟩), ?_, ?_⟩
    · show x / chunkSize * chunkSize < fileSize
      omega
    · show x / chunkSize * chunkSize ≤ x
      omega
    · show x < x / chunkSize * chunkSize + min chunkSize (fileSize - x / chunkSize * chunkSize)
      omega

end GridFlux
