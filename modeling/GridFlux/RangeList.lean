/-
GridFlux/RangeList.lean

`core::chunk::RangeList` and `planChunks`.

The stored vector is kept sorted with adjacent ranges joined; the byte count
is a running total.  `std::lower_bound` splits the sorted vector in two, so it
is rendered by `List.span`: the elements before the returned iterator and
those from it on.  Erasing and inserting at the iterator then act on the ends
of the two halves.

Main results: on a well-formed list, `insert` succeeds exactly on a non-empty
in-bounds range that is disjoint from the stored bytes
(`RangeList.insert_isOk_iff`) and adds exactly that range
(`RangeList.insert_spec`); `merge` adds any in-bounds range
(`RangeList.merge_spec`); `missingRanges` is the exact complement
(`RangeList.covered_missingRanges`).
-/
import Mathlib.Data.List.TakeWhile
import GridFlux.Intervals
import GridFlux.Common

namespace GridFlux

open HalfOpen

/-- `core::chunk::CompletedRange`. -/
abbrev CompletedRange := HalfOpen.Interval Nat

/-- `core::chunk::RangeList`: the private vector and the running byte count. -/
structure RangeList where
  ranges : List CompletedRange
  bytesCompleted : Nat
deriving DecidableEq, Repr

namespace RangeList

def empty : RangeList := ⟨[], 0⟩

def rangeLength (range : CompletedRange) : Nat := range.end - range.begin

def validate (offset length totalSize : Nat) : Except Status Unit :=
  if length = 0 then
    .error (.invalidArgument (ascii "range length must be greater than zero"))
  else if offset > totalSize ∨ length > totalSize - offset then
    .error (.invalidArgument (ascii "range exceeds transfer size"))
  else .ok ()

/-- The two halves of the vector at `std::lower_bound(…, value, range.begin < value)`. -/
def lowerBoundBegin (ranges : List CompletedRange) (value : Nat) :
    List CompletedRange × List CompletedRange :=
  ranges.span fun range => range.begin < value

/-- The two halves at `std::lower_bound(…, value, range.end < value)`. -/
def lowerBoundEnd (ranges : List CompletedRange) (value : Nat) :
    List CompletedRange × List CompletedRange :=
  ranges.span fun range => range.end < value

/-- The two overlap checks of `insert` against the neighbours of the iterator. -/
def checkNeighbours (before after : List CompletedRange) (incoming : CompletedRange) :
    Except Status Unit :=
  if before.getLast?.any (fun previous => previous.end > incoming.begin) then
    .error (.invalidArgument (ascii "range overlaps previous completed range"))
  else if after.head?.any (fun next => next.begin < incoming.end) then
    .error (.invalidArgument (ascii "range overlaps next completed range"))
  else .ok ()

/-- `insert`'s first join: absorb the previous range when it ends where the
incoming one begins.  Returns the merged range, the elements left before the
iterator and the byte count. -/
def joinPrevious (before : List CompletedRange) (merged : CompletedRange) (bytes : Nat) :
    CompletedRange × List CompletedRange × Nat :=
  match before.getLast? with
  | none => (merged, before, bytes)
  | some previous =>
      if previous.end = merged.begin then
        (⟨previous.begin, merged.end⟩, before.dropLast, bytes - rangeLength previous)
      else (merged, before, bytes)

/-- `insert`'s second join: absorb the next range when it begins where the
merged one ends. -/
def joinNext (after : List CompletedRange) (merged : CompletedRange) (bytes : Nat) :
    CompletedRange × List CompletedRange × Nat :=
  match after with
  | [] => (merged, [], bytes)
  | next :: rest =>
      if merged.end = next.begin then
        (⟨merged.begin, next.end⟩, rest, bytes - rangeLength next)
      else (merged, next :: rest, bytes)

/-- `RangeList::insert`; an error leaves the list as it was. -/
def insert (l : RangeList) (offset length totalSize : Nat) : Except Status RangeList := do
  validate offset length totalSize
  let incoming : CompletedRange := ⟨offset, offset + length⟩
  let halves := lowerBoundBegin l.ranges incoming.begin
  checkNeighbours halves.1 halves.2 incoming
  let (merged, before, bytes) := joinPrevious halves.1 incoming l.bytesCompleted
  let (merged, after, bytes) := joinNext halves.2 merged bytes
  return ⟨before ++ merged :: after, bytes + rangeLength merged⟩

/-- `merge`'s loop: absorb every range that begins no later than the merged
range ends. -/
def absorb (merged : CompletedRange) (bytes : Nat) :
    List CompletedRange → CompletedRange × Nat × List CompletedRange
  | [] => (merged, bytes, [])
  | current :: rest =>
      if current.begin ≤ merged.end then
        absorb ⟨min merged.begin current.begin, max merged.end current.end⟩
          (bytes - rangeLength current) rest
      else (merged, bytes, current :: rest)

/-- `RangeList::merge`; an error leaves the list as it was. -/
def merge (l : RangeList) (offset length totalSize : Nat) : Except Status RangeList := do
  validate offset length totalSize
  let incoming : CompletedRange := ⟨offset, offset + length⟩
  let halves := lowerBoundEnd l.ranges incoming.begin
  -- one step back when the previous range reaches the merged one
  let (before, current) :=
    match halves.1.getLast? with
    | none => halves
    | some previous =>
        if previous.end ≥ incoming.begin then (halves.1.dropLast, previous :: halves.2)
        else halves
  let (merged, bytes, rest) := absorb incoming l.bytesCompleted current
  let (left, right) := lowerBoundBegin (before ++ rest) merged.begin
  return ⟨left ++ merged :: right, bytes + rangeLength merged⟩

/-- `RangeList::missingRanges`. -/
def missingRanges (l : RangeList) (totalSize : Nat) : List CompletedRange :=
  gaps 0 totalSize l.ranges

/-! ### Well-formedness -/

/-- The representation invariant for a transfer of `totalSize` bytes. -/
structure WellFormed (l : RangeList) (totalSize : Nat) : Prop where
  canonical : Canonical l.ranges
  bounded : ∀ r ∈ l.ranges, r.end ≤ totalSize
  bytes_eq : l.bytesCompleted = totalLength l.ranges

theorem WellFormed.empty (totalSize : Nat) : WellFormed empty totalSize :=
  ⟨Canonical.nil, by simp [RangeList.empty], rfl⟩

theorem validate_eq_ok {offset length totalSize : Nat} {u : Unit} :
    validate offset length totalSize = .ok u ↔
      0 < length ∧ offset + length ≤ totalSize := by
  simp only [validate]
  split
  · simp; omega
  · split
    · simp; omega
    · simp; omega

/-! ### `insert` -/

/-- What `std::lower_bound` finds in an ordered list: the halves rebuild the
list, begins before the iterator are smaller and begins from it on are not. -/
theorem lowerBoundBegin_spec {ranges : List CompletedRange} (h : Ordered ranges)
    (value : Nat) :
    (lowerBoundBegin ranges value).1 ++ (lowerBoundBegin ranges value).2 = ranges ∧
    (∀ r ∈ (lowerBoundBegin ranges value).1, r.begin < value) ∧
    (∀ r ∈ (lowerBoundBegin ranges value).2, value ≤ r.begin) := by
  simp only [lowerBoundBegin, List.span_eq_takeWhile_dropWhile]
  refine ⟨List.takeWhile_append_dropWhile, fun r hr => ?_, ?_⟩
  · simpa using List.mem_takeWhile_imp hr
  · induction ranges with
    | nil => simp
    | cons r l ih =>
        obtain ⟨hr, hgap, hl⟩ := ordered_cons.mp h
        by_cases hlt : r.begin < value
        · simpa [List.dropWhile_cons, hlt] using ih hl
        · intro s hs
          rcases List.mem_cons.mp (by simpa [List.dropWhile_cons, hlt] using hs) with rfl | hs
          · omega
          · have := hgap s hs
            omega

theorem lowerBoundEnd_spec {ranges : List CompletedRange} (h : Canonical ranges)
    (value : Nat) :
    (lowerBoundEnd ranges value).1 ++ (lowerBoundEnd ranges value).2 = ranges ∧
    (∀ r ∈ (lowerBoundEnd ranges value).1, r.end < value) ∧
    (∀ r ∈ (lowerBoundEnd ranges value).2, value ≤ r.end) := by
  simp only [lowerBoundEnd, List.span_eq_takeWhile_dropWhile]
  refine ⟨List.takeWhile_append_dropWhile, fun r hr => ?_, ?_⟩
  · simpa using List.mem_takeWhile_imp hr
  · induction ranges with
    | nil => simp
    | cons r l ih =>
        obtain ⟨hr, hgap, hl⟩ := canonical_cons.mp h
        by_cases hlt : r.end < value
        · simpa [List.dropWhile_cons, hlt] using ih hl
        · intro s hs
          rcases List.mem_cons.mp (by simpa [List.dropWhile_cons, hlt] using hs) with rfl | hs
          · omega
          · have := hgap s hs
            have := hl.nonempty s hs
            omega

/-- The neighbour checks pass exactly when the incoming range is disjoint from
both halves. -/
theorem checkNeighbours_eq_ok {before after : List CompletedRange} {incoming : CompletedRange}
    {u : Unit} (h : Ordered (before ++ after)) :
    checkNeighbours before after incoming = .ok u ↔
      (∀ r ∈ before, r.end ≤ incoming.begin) ∧ (∀ r ∈ after, incoming.end ≤ r.begin) := by
  obtain ⟨hbefore, hafter, -⟩ := ordered_append.mp h
  have hprev : before.getLast?.any (fun previous => previous.end > incoming.begin) = false ↔
      ∀ r ∈ before, r.end ≤ incoming.begin := by
    rcases List.eq_nil_or_concat' before with rfl | ⟨front, previous, rfl⟩
    · simp
    · obtain ⟨-, hlast, hgap⟩ := ordered_append.mp hbefore
      have hp := hlast.nonempty previous (by simp)
      simp only [List.getLast?_append, List.getLast?_singleton,
        Option.some_or, Option.any_some, decide_eq_false_iff_not, not_lt, List.mem_append,
        List.mem_singleton]
      constructor
      · rintro hle r (hr | rfl)
        · have := hgap r hr previous (by simp)
          omega
        · exact hle
      · intro hall
        exact hall previous (Or.inr rfl)
  have hnext : after.head?.any (fun next => next.begin < incoming.end) = false ↔
      ∀ r ∈ after, incoming.end ≤ r.begin := by
    rcases after with - | ⟨next, rest⟩
    · simp
    · obtain ⟨hn, hgap, -⟩ := ordered_cons.mp hafter
      simp only [List.head?_cons, Option.any_some, decide_eq_false_iff_not, not_lt,
        List.mem_cons]
      constructor
      · rintro hle r (rfl | hr)
        · exact hle
        · have := hgap r hr
          omega
      · intro hall
        exact hall next (Or.inl rfl)
  simp only [checkNeighbours]
  by_cases hp : before.getLast?.any (fun previous => previous.end > incoming.begin) = true
  · have hp' : ¬∀ r ∈ before, r.end ≤ incoming.begin := by
      rw [← hprev, hp]
      simp
    simp [hp, hp']
  · have hp' := hprev.mp (Bool.not_eq_true _ ▸ hp)
    by_cases hn : after.head?.any (fun next => next.begin < incoming.end) = true
    · have hn' : ¬∀ r ∈ after, incoming.end ≤ r.begin := by
        rw [← hnext, hn]
        simp
      simp [hp, hn, hn']
    · have hn' := hnext.mp (Bool.not_eq_true _ ▸ hn)
      simp only [hp, hn, Bool.false_eq_true, if_false, true_iff]
      exact ⟨hp', hn'⟩

theorem joinPrevious_spec {before : List CompletedRange} {m : CompletedRange} (bytes : Nat)
    (h : Canonical before) (hm : m.begin < m.end) (hle : ∀ r ∈ before, r.end ≤ m.begin)
    (hbytes : totalLength before ≤ bytes) :
    ∃ m' before' bytes', joinPrevious before m bytes = (m', before', bytes') ∧
      m'.end = m.end ∧ m'.begin < m'.end ∧ Canonical before' ∧
      (∀ r ∈ before', r.end < m'.begin) ∧
      covered before' ∪ Set.Ico m'.begin m'.end = covered before ∪ Set.Ico m.begin m.end ∧
      bytes' + rangeLength m' = bytes + rangeLength m ∧
      bytes' + totalLength before = bytes + totalLength before' := by
  rcases List.eq_nil_or_concat' before with rfl | ⟨front, previous, rfl⟩
  · exact ⟨m, [], bytes, rfl, rfl, hm, h, by simp, rfl, rfl, rfl⟩
  · obtain ⟨hfront, hlast, hgap⟩ := canonical_append.mp h
    have hp := hlast.nonempty previous (by simp)
    have hgap' : ∀ r ∈ front, r.end < previous.begin := fun r hr => hgap r hr previous (by simp)
    have hpm := hle previous (by simp)
    simp only [totalLength_append, totalLength_cons, totalLength_nil] at hbytes
    by_cases hjoin : previous.end = m.begin
    · refine ⟨⟨previous.begin, m.end⟩, front, bytes - rangeLength previous, ?_, rfl, by
        simp only; omega, hfront, hgap', ?_, ?_, ?_⟩
      · simp [joinPrevious, hjoin]
      · ext x
        simp only [covered_append, covered_cons, covered_nil, Set.mem_union, Set.mem_Ico,
          Set.mem_empty_iff_false]
        grind
      · simp only [rangeLength]
        omega
      · simp only [rangeLength, totalLength_append, totalLength_cons, totalLength_nil]
        omega
    · refine ⟨m, front ++ [previous], bytes, by simp [joinPrevious, hjoin], rfl, hm, h, ?_, rfl,
        rfl, rfl⟩
      intro r hr
      rcases List.mem_append.mp hr with hr | hr
      · have := hgap' r hr
        omega
      · obtain rfl := List.mem_singleton.mp hr
        omega

theorem joinNext_spec {after : List CompletedRange} {m : CompletedRange} (bytes : Nat)
    (h : Canonical after) (hm : m.begin < m.end) (hle : ∀ r ∈ after, m.end ≤ r.begin)
    (hbytes : totalLength after ≤ bytes) :
    ∃ m' after' bytes', joinNext after m bytes = (m', after', bytes') ∧
      m'.begin = m.begin ∧ m'.begin < m'.end ∧ Canonical after' ∧
      (∀ r ∈ after', m'.end < r.begin) ∧
      covered after' ∪ Set.Ico m'.begin m'.end = covered after ∪ Set.Ico m.begin m.end ∧
      bytes' + rangeLength m' = bytes + rangeLength m ∧
      bytes' + totalLength after = bytes + totalLength after' := by
  rcases after with - | ⟨next, rest⟩
  · exact ⟨m, [], bytes, rfl, rfl, hm, h, by simp, rfl, rfl, rfl⟩
  · obtain ⟨hn, hgap, hrest⟩ := canonical_cons.mp h
    have hmn := hle next (by simp)
    simp only [totalLength_cons] at hbytes
    by_cases hjoin : m.end = next.begin
    · refine ⟨⟨m.begin, next.end⟩, rest, bytes - rangeLength next, by
        simp [joinNext, hjoin], rfl, by simp only; omega, hrest, hgap, ?_, ?_, ?_⟩
      · ext x
        simp only [covered_cons, Set.mem_union, Set.mem_Ico]
        grind
      · simp only [rangeLength]
        omega
      · simp only [rangeLength, totalLength_cons]
        omega
    · refine ⟨m, next :: rest, bytes, by simp [joinNext, hjoin], rfl, hm, h, ?_, rfl, rfl, rfl⟩
      intro r hr
      rcases List.mem_cons.mp hr with rfl | hr
      · omega
      · have := hgap r hr
        omega

/-- Both neighbour checks together say that no stored byte is hit. -/
theorem neighbours_iff_disjoint {before after : List CompletedRange}
    (incoming : CompletedRange) (h : Ordered (before ++ after)) (hin : incoming.begin < incoming.end)
    (hlt : ∀ r ∈ before, r.begin < incoming.begin) (hge : ∀ r ∈ after, incoming.begin ≤ r.begin) :
    ((∀ r ∈ before, r.end ≤ incoming.begin) ∧ (∀ r ∈ after, incoming.end ≤ r.begin)) ↔
      Disjoint (covered (before ++ after)) (Set.Ico incoming.begin incoming.end) := by
  rw [Set.disjoint_left]
  constructor
  · rintro ⟨hb, ha⟩ x ⟨r, hr, hrx⟩ hx
    rcases List.mem_append.mp hr with hr | hr
    · have := hb r hr
      exact absurd hx.1 (by omega)
    · have := ha r hr
      exact absurd hx.2 (by omega)
  · intro hdisj
    refine ⟨fun r hr => ?_, fun r hr => ?_⟩
    · by_contra hlt'
      have hb := hlt r hr
      exact hdisj ⟨r, List.mem_append_left _ hr, hb.le, by omega⟩ ⟨le_refl _, hin⟩
    · by_contra hlt'
      have hne := h.nonempty r (List.mem_append_right _ hr)
      exact hdisj ⟨r, List.mem_append_right _ hr, le_refl _, hne⟩ ⟨hge r hr, by omega⟩

/-- `insert` past its checks: the list it builds. -/
theorem insert_joined {l : RangeList} {offset length totalSize : Nat}
    (h : l.WellFormed totalSize) (hlen : 0 < length) (hbound : offset + length ≤ totalSize)
    (hb : ∀ r ∈ (lowerBoundBegin l.ranges offset).1, r.end ≤ offset)
    (ha : ∀ r ∈ (lowerBoundBegin l.ranges offset).2, offset + length ≤ r.begin) :
    ∃ l', l.insert offset length totalSize = .ok l' ∧ l'.WellFormed totalSize ∧
      covered l'.ranges = covered l.ranges ∪ Set.Ico offset (offset + length) ∧
      l'.bytesCompleted = l.bytesCompleted + length := by
  obtain ⟨hsplit, -, -⟩ := lowerBoundBegin_spec h.canonical.ordered offset
  have hvalid := validate_eq_ok (u := ()).mpr ⟨hlen, hbound⟩
  have hbytes := h.bytes_eq
  rcases hhalves : lowerBoundBegin l.ranges offset with ⟨before, after⟩
  simp only [hhalves] at hsplit hb ha
  have hcanon : Canonical (before ++ after) := hsplit ▸ h.canonical
  have hcheck : checkNeighbours before after ⟨offset, offset + length⟩ = .ok () :=
    (checkNeighbours_eq_ok hcanon.ordered).mpr ⟨hb, ha⟩
  obtain ⟨hbefore, hafter, hgap⟩ := canonical_append.mp hcanon
  rw [← hsplit, totalLength_append] at hbytes
  obtain ⟨m₁, before', bytes₁, hjp, hend, hm₁, hcb, hgb, hcov₁, hlen₁, hsum₁⟩ :=
    joinPrevious_spec (m := ⟨offset, offset + length⟩) l.bytesCompleted hbefore
      (by simp only; omega) hb (by omega)
  obtain ⟨m₂, after', bytes₂, hjn, hbeg, hm₂, hca, hga, hcov₂, hlen₂, hsum₂⟩ :=
    joinNext_spec (m := m₁) bytes₁ hafter hm₁ (by rw [hend]; exact ha)
      (by omega)
  have hcross : ∀ a ∈ before', ∀ b ∈ m₂ :: after', a.end < b.begin := by
    intro a haa b hbb
    have h1 := hgb a haa
    rcases List.mem_cons.mp hbb with rfl | hbb
    · omega
    · have h2 := hga b hbb
      omega
  have hcov : covered (before' ++ m₂ :: after') =
      covered l.ranges ∪ Set.Ico offset (offset + length) := by
    rw [covered_append, covered_cons, Set.union_comm (Set.Ico _ _), hcov₂, ← hsplit,
      covered_append, Set.union_comm (covered after), ← Set.union_assoc, hcov₁,
      Set.union_assoc, Set.union_assoc, Set.union_comm (Set.Ico _ _)]
  refine ⟨⟨before' ++ m₂ :: after', bytes₂ + rangeLength m₂⟩, ?_, ⟨?_, ?_, ?_⟩, hcov, ?_⟩
  · simp [insert, hvalid, hhalves, hcheck, hjp, hjn, pure, Except.pure]
  · exact canonical_append.mpr ⟨hcb, canonical_cons.mpr ⟨hm₂, hga, hca⟩, hcross⟩
  · -- every stored byte is covered, so the last point of a range bounds its end
    intro r hr
    have hne : r.begin < r.end := by
      rcases List.mem_append.mp hr with hr | hr
      · exact hcb.nonempty r hr
      · rcases List.mem_cons.mp hr with rfl | hr
        · exact hm₂
        · exact hca.nonempty r hr
    have hmem : r.end - 1 ∈ covered (before' ++ m₂ :: after') :=
      ⟨r, hr, by omega, by omega⟩
    rw [hcov] at hmem
    rcases hmem with ⟨s, hs, -, hs2⟩ | hmem
    · have := h.bounded s hs
      omega
    · have := hmem.2
      omega
  · simp only [totalLength_append, totalLength_cons, rangeLength] at *
    omega
  · simp only [rangeLength] at *
    omega

/-- **`insert`**: it succeeds exactly on a non-empty in-bounds range disjoint
from the stored bytes, and then adds that range and counts its bytes. -/
theorem insert_of_disjoint {l : RangeList} {offset length totalSize : Nat}
    (h : l.WellFormed totalSize) (hlen : 0 < length) (hbound : offset + length ≤ totalSize)
    (hdisj : Disjoint (covered l.ranges) (Set.Ico offset (offset + length))) :
    ∃ l', l.insert offset length totalSize = .ok l' ∧ l'.WellFormed totalSize ∧
      covered l'.ranges = covered l.ranges ∪ Set.Ico offset (offset + length) ∧
      l'.bytesCompleted = l.bytesCompleted + length := by
  obtain ⟨hsplit, hlt, hge⟩ := lowerBoundBegin_spec h.canonical.ordered offset
  obtain ⟨hb, ha⟩ :=
    (neighbours_iff_disjoint ⟨offset, offset + length⟩
      (by rw [hsplit]; exact h.canonical.ordered) (by simp only; omega) hlt hge).mpr
      (by rw [hsplit]; exact hdisj)
  exact insert_joined h hlen hbound hb ha

/-- The other direction of `insert_of_disjoint`. -/
theorem disjoint_of_insert {l l' : RangeList} {offset length totalSize : Nat}
    (h : l.WellFormed totalSize) (hok : l.insert offset length totalSize = .ok l') :
    0 < length ∧ offset + length ≤ totalSize ∧
      Disjoint (covered l.ranges) (Set.Ico offset (offset + length)) := by
  obtain ⟨hsplit, hlt, hge⟩ := lowerBoundBegin_spec h.canonical.ordered offset
  simp only [insert, bind_eq_ok] at hok
  obtain ⟨_, hvalid, _, hcheck, _⟩ := hok
  obtain ⟨hlen, hbound⟩ := validate_eq_ok.mp hvalid
  have hcanon : Canonical ((lowerBoundBegin l.ranges offset).1 ++
      (lowerBoundBegin l.ranges offset).2) := by
    rw [hsplit]
    exact h.canonical
  have hdisj := (neighbours_iff_disjoint ⟨offset, offset + length⟩ hcanon.ordered
    (by simp only; omega) hlt hge).mp ((checkNeighbours_eq_ok hcanon.ordered).mp hcheck)
  rw [hsplit] at hdisj
  exact ⟨hlen, hbound, hdisj⟩

/-- What a successful `insert` does. -/
theorem insert_spec {l l' : RangeList} {offset length totalSize : Nat}
    (h : l.WellFormed totalSize) (hok : l.insert offset length totalSize = .ok l') :
    l'.WellFormed totalSize ∧
      covered l'.ranges = covered l.ranges ∪ Set.Ico offset (offset + length) ∧
      l'.bytesCompleted = l.bytesCompleted + length := by
  obtain ⟨hlen, hbound, hdisj⟩ := disjoint_of_insert h hok
  obtain ⟨l'', hok', hspec⟩ := insert_of_disjoint h hlen hbound hdisj
  rw [hok] at hok'
  obtain rfl := Except.ok.inj hok'
  exact hspec

/-! ### `merge` -/

/-- The loop keeps the union: what it absorbs plus what it leaves is what it
was given, and the ranges left lie beyond a gap. -/
theorem absorb_spec {l : List CompletedRange} {m : CompletedRange} (bytes : Nat)
    (h : Canonical l) (hm : m.begin < m.end) (hle : ∀ r ∈ l, m.begin ≤ r.end)
    (hbytes : totalLength l ≤ bytes) :
    ∃ m' bytes' rest, absorb m bytes l = (m', bytes', rest) ∧
      m'.begin < m'.end ∧ Canonical rest ∧ (∀ r ∈ rest, m'.end < r.begin) ∧
      m'.begin ≤ m.begin ∧ (m'.begin = m.begin ∨ ∃ r ∈ l, m'.begin = r.begin) ∧
      covered rest ∪ Set.Ico m'.begin m'.end = covered l ∪ Set.Ico m.begin m.end ∧
      bytes' + totalLength l = bytes + totalLength rest := by
  induction l generalizing m bytes with
  | nil => exact ⟨m, bytes, [], rfl, hm, h, by simp, le_refl _, Or.inl rfl, rfl, rfl⟩
  | cons current l ih =>
      obtain ⟨hc, hgap, hl⟩ := canonical_cons.mp h
      have hmc := hle current (by simp)
      rw [totalLength_cons] at hbytes
      by_cases hreach : current.begin ≤ m.end
      · obtain ⟨m', bytes', rest, heq, hm', hrest, hlast, hbeg, hfrom, hcov, hsum⟩ :=
          ih (m := ⟨min m.begin current.begin, max m.end current.end⟩)
            (bytes - rangeLength current) hl (by simp only; omega)
            (fun r hr => by
              have := hgap r hr
              have := hl.nonempty r hr
              simp only
              omega)
            (by simp only [rangeLength]; omega)
        refine ⟨m', bytes', rest, by simpa [absorb, hreach] using heq, hm', hrest, hlast,
          hbeg.trans (min_le_left _ _), ?_, ?_, ?_⟩
        · rcases hfrom with hfrom | ⟨r, hr, hfrom⟩
          · rcases min_choice m.begin current.begin with hmin | hmin
            · exact Or.inl (hfrom.trans hmin)
            · exact Or.inr ⟨current, by simp, hfrom.trans hmin⟩
          · exact Or.inr ⟨r, by simp [hr], hfrom⟩
        · rw [hcov, covered_cons]
          ext x
          simp only [Set.mem_union, Set.mem_Ico]
          grind
        · simp only [rangeLength, totalLength_cons] at *
          omega
      · refine ⟨m, bytes, current :: l, by simp [absorb, hreach], hm, h, ?_, le_refl _,
          Or.inl rfl, rfl, rfl⟩
        intro r hr
        rcases List.mem_cons.mp hr with rfl | hr
        · omega
        · have := hgap r hr
          omega

/-- The second search of `merge` finds the hole the loop has left. -/
theorem lowerBoundBegin_append {before rest : List CompletedRange} {value : Nat}
    (hb : ∀ r ∈ before, r.begin < value) (hr : ∀ r ∈ rest, value ≤ r.begin) :
    lowerBoundBegin (before ++ rest) value = (before, rest) := by
  have hpos : ∀ r ∈ before, decide (r.begin < value) = true := fun r h => by
    simpa using hb r h
  have hrest : rest.takeWhile (fun r => decide (r.begin < value)) = [] ∧
      rest.dropWhile (fun r => decide (r.begin < value)) = rest := by
    rcases rest with - | ⟨r, rest⟩
    · simp
    · have hneg : ¬r.begin < value := not_lt.mpr (hr r (by simp))
      simp [hneg]
  simp only [lowerBoundBegin, List.span_eq_takeWhile_dropWhile,
    List.takeWhile_append_of_pos hpos, List.dropWhile_append_of_pos hpos, hrest.1, hrest.2,
    List.append_nil]

/-- **`merge`** adds any non-empty in-bounds range to a well-formed list. -/
theorem merge_of_bound {l : RangeList} {offset length totalSize : Nat}
    (h : l.WellFormed totalSize) (hlen : 0 < length) (hbound : offset + length ≤ totalSize) :
    ∃ l', l.merge offset length totalSize = .ok l' ∧ l'.WellFormed totalSize ∧
      covered l'.ranges = covered l.ranges ∪ Set.Ico offset (offset + length) := by
  have hvalid := validate_eq_ok (u := ()).mpr ⟨hlen, hbound⟩
  have hbytes := h.bytes_eq
  obtain ⟨hsplit, hlt, hge⟩ := lowerBoundEnd_spec h.canonical offset
  rcases hhalves : lowerBoundEnd l.ranges offset with ⟨before, current⟩
  simp only [hhalves] at hsplit hlt hge
  rw [← hsplit, totalLength_append] at hbytes
  have hcanon : Canonical (before ++ current) := by
    rw [hsplit]
    exact h.canonical
  obtain ⟨hbefore, hcurrent, hgap⟩ := canonical_append.mp hcanon
  -- the search has already stepped over every range that ends before the new one
  have hstep : (match before.getLast? with
      | none => (before, current)
      | some previous =>
          if previous.end ≥ offset then (before.dropLast, previous :: current)
          else (before, current)) = (before, current) := by
    rcases List.eq_nil_or_concat' before with rfl | ⟨front, previous, rfl⟩
    · rfl
    · have hp := hlt previous (by simp)
      simp only [List.getLast?_append, List.getLast?_singleton, Option.some_or]
      rw [if_neg (by omega)]
  obtain ⟨m, bytes, rest, habs, hm, hrest, hlast, hbeg, hfrom, hcov, hsum⟩ :=
    absorb_spec (m := ⟨offset, offset + length⟩) l.bytesCompleted hcurrent
      (by simp only; omega) hge (by omega)
  have hleft : ∀ r ∈ before, r.end < m.begin := by
    intro r hr
    rcases hfrom with hfrom | ⟨s, hs, hfrom⟩
    · rw [hfrom]
      exact hlt r hr
    · rw [hfrom]
      exact hgap r hr s hs
  have hhole : lowerBoundBegin (before ++ rest) m.begin = (before, rest) :=
    lowerBoundBegin_append
      (fun r hr => (hbefore.nonempty r hr).trans (hleft r hr))
      (fun r hr => (hm.trans (hlast r hr)).le)
  have hcov' : covered (before ++ m :: rest) =
      covered l.ranges ∪ Set.Ico offset (offset + length) := by
    rw [covered_append, covered_cons, Set.union_comm (Set.Ico _ _), hcov, ← hsplit,
      covered_append, Set.union_assoc]
  refine ⟨⟨before ++ m :: rest, bytes + rangeLength m⟩, ?_, ⟨?_, ?_, ?_⟩, hcov'⟩
  · simp [merge, hvalid, hhalves, hstep, habs, hhole, pure, Except.pure]
  · refine canonical_append.mpr ⟨hbefore, canonical_cons.mpr ⟨hm, hlast, hrest⟩, ?_⟩
    intro a ha b hb
    have h1 := hleft a ha
    rcases List.mem_cons.mp hb with rfl | hb
    · exact h1
    · exact (h1.trans hm).trans (hlast b hb)
  · intro r hr
    have hne : r.begin < r.end := by
      rcases List.mem_append.mp hr with hr | hr
      · exact hbefore.nonempty r hr
      · rcases List.mem_cons.mp hr with rfl | hr
        · exact hm
        · exact hrest.nonempty r hr
    have hmem : r.end - 1 ∈ covered (before ++ m :: rest) := ⟨r, hr, by omega, by omega⟩
    rw [hcov'] at hmem
    rcases hmem with ⟨s, hs, -, hs2⟩ | hmem
    · have := h.bounded s hs
      omega
    · have := hmem.2
      omega
  · simp only [totalLength_append, totalLength_cons, rangeLength]
    omega

theorem merge_spec {l l' : RangeList} {offset length totalSize : Nat}
    (h : l.WellFormed totalSize) (hok : l.merge offset length totalSize = .ok l') :
    0 < length ∧ offset + length ≤ totalSize ∧ l'.WellFormed totalSize ∧
      covered l'.ranges = covered l.ranges ∪ Set.Ico offset (offset + length) := by
  have hvalid : validate offset length totalSize = .ok () := by
    simp only [merge, bind_eq_ok] at hok
    obtain ⟨_, hvalid, _⟩ := hok
    exact hvalid
  obtain ⟨hlen, hbound⟩ := validate_eq_ok.mp hvalid
  obtain ⟨l'', hok', hspec⟩ := merge_of_bound h hlen hbound
  rw [hok] at hok'
  obtain rfl := Except.ok.inj hok'
  exact ⟨hlen, hbound, hspec⟩

/-! ### `missingRanges` -/

/-- **`missingRanges`** covers exactly the bytes of `[0, totalSize)` that are
not stored. -/
theorem covered_missingRanges {l : RangeList} {totalSize : Nat} (h : l.WellFormed totalSize) :
    covered (l.missingRanges totalSize) = Set.Ico 0 totalSize \ covered l.ranges :=
  covered_gaps h.canonical (fun _ _ => Nat.zero_le _) h.bounded

theorem canonical_missingRanges {l : RangeList} {totalSize : Nat}
    (h : l.WellFormed totalSize) : Canonical (l.missingRanges totalSize) :=
  canonical_gaps h.canonical fun _ _ => Nat.zero_le _

/-- Nothing is missing exactly when every byte of the transfer is stored. -/
theorem missingRanges_eq_nil_iff {l : RangeList} {totalSize : Nat}
    (h : l.WellFormed totalSize) :
    l.missingRanges totalSize = [] ↔ covered l.ranges = Set.Ico 0 totalSize := by
  have hsub : covered l.ranges ⊆ Set.Ico 0 totalSize := by
    rintro x ⟨r, hr, -, hlt⟩
    exact ⟨Nat.zero_le _, hlt.trans_le (h.bounded r hr)⟩
  constructor
  · intro hnil
    have hcov := covered_missingRanges h
    rw [hnil, covered_nil] at hcov
    exact Set.Subset.antisymm hsub (Set.sdiff_eq_empty.mp hcov.symm)
  · intro hfull
    refine (canonical_missingRanges h).eq_of_covered_eq Canonical.nil ?_
    rw [covered_missingRanges h, hfull, covered_nil, Set.sdiff_self]

/-! ### Inserting a whole list of ranges -/

/-- Insert the ranges one after the other, stopping at the first error. -/
def insertAll (l : RangeList) (totalSize : Nat) : List CompletedRange → Except Status RangeList
  | [] => .ok l
  | r :: rest => do
      let l' ← l.insert r.begin (r.end - r.begin) totalSize
      insertAll l' totalSize rest

theorem insertAll_append (l : RangeList) (totalSize : Nat) (rs rs' : List CompletedRange) :
    l.insertAll totalSize (rs ++ rs') =
      (l.insertAll totalSize rs >>= fun l' => l'.insertAll totalSize rs') := by
  induction rs generalizing l with
  | nil => rfl
  | cons r rs ih =>
      simp only [List.cons_append, insertAll]
      cases l.insert r.begin (r.end - r.begin) totalSize with
      | error e => rfl
      | ok l' => exact ih l'

/-- A successful run of inserts: the ranges were non-empty, in bounds, separated
and new, and exactly they were added. -/
theorem insertAll_spec {rs : List CompletedRange} {l l' : RangeList} {totalSize : Nat}
    (h : l.WellFormed totalSize) (hok : l.insertAll totalSize rs = .ok l') :
    l'.WellFormed totalSize ∧ covered l'.ranges = covered l.ranges ∪ covered rs ∧
      l'.bytesCompleted = l.bytesCompleted + totalLength rs ∧
      (∀ r ∈ rs, r.begin < r.end ∧ r.end ≤ totalSize) ∧ Separated rs ∧
      Disjoint (covered l.ranges) (covered rs) := by
  induction rs generalizing l with
  | nil =>
      obtain rfl := Except.ok.inj hok
      exact ⟨h, by simp, rfl, by simp, List.Pairwise.nil, by simp⟩
  | cons r rs ih =>
      simp only [insertAll, bind_eq_ok] at hok
      obtain ⟨l₁, hins, hok⟩ := hok
      obtain ⟨hlen, hbound, hdisj⟩ := disjoint_of_insert h hins
      obtain ⟨h₁, hcov₁, hbytes₁⟩ := insert_spec h hins
      obtain ⟨h', hcov', hbytes', hall, hsep, hdisj'⟩ := ih h₁ hok
      have hr : r.begin + (r.end - r.begin) = r.end := by omega
      rw [hr] at hcov₁ hdisj hbound
      rw [hcov₁, Set.disjoint_union_left] at hdisj'
      refine ⟨h', ?_, ?_, ?_, ?_, ?_⟩
      · rw [hcov', hcov₁, covered_cons, Set.union_assoc]
      · rw [hbytes', hbytes₁, totalLength_cons, Nat.add_assoc]
      · intro s hs
        rcases List.mem_cons.mp hs with rfl | hs
        · exact ⟨by omega, hbound⟩
        · exact hall s hs
      · refine List.pairwise_cons.mpr ⟨fun s hs => ?_, hsep⟩
        by_contra hne
        have hsne := (hall s hs).1
        -- two ranges that are not ordered share the larger of their begins
        have hshare : max r.begin s.begin ∈ covered rs := ⟨s, hs, by omega, by omega⟩
        exact Set.disjoint_left.mp hdisj'.2 ⟨by omega, by omega⟩ hshare
      · rw [covered_cons, Set.disjoint_union_right]
        exact ⟨hdisj, hdisj'.1⟩

/-- Separated in-bounds ranges that avoid the stored bytes can all be inserted. -/
theorem insertAll_of_separated {rs : List CompletedRange} {l : RangeList} {totalSize : Nat}
    (h : l.WellFormed totalSize) (hall : ∀ r ∈ rs, r.begin < r.end ∧ r.end ≤ totalSize)
    (hsep : Separated rs) (hdisj : Disjoint (covered l.ranges) (covered rs)) :
    ∃ l', l.insertAll totalSize rs = .ok l' := by
  induction rs generalizing l with
  | nil => exact ⟨l, rfl⟩
  | cons r rs ih =>
      obtain ⟨hfar, hsep'⟩ := List.pairwise_cons.mp hsep
      obtain ⟨hne, hbound⟩ := hall r (by simp)
      rw [covered_cons, Set.disjoint_union_right] at hdisj
      have hr : r.begin + (r.end - r.begin) = r.end := by omega
      obtain ⟨l₁, hins, h₁, hcov₁, -⟩ := insert_of_disjoint h (Nat.sub_pos_of_lt hne)
        (hr.trans_le hbound) (hr.symm ▸ hdisj.1)
      rw [hr] at hcov₁
      have hdisj₁ : Disjoint (covered l₁.ranges) (covered rs) := by
        rw [hcov₁, Set.disjoint_union_left]
        refine ⟨hdisj.2, Set.disjoint_left.mpr ?_⟩
        rintro x hx ⟨s, hs, hsx⟩
        have hsx' := hfar s hs
        simp only [Set.mem_Ico] at hx
        omega
      obtain ⟨l', hok⟩ := ih h₁ (fun s hs => hall s (by simp [hs])) hsep' hdisj₁
      exact ⟨l', by simp [insertAll, hins, hok]⟩

/-- The range list built from nothing depends only on the set of ranges, not on
their order. -/
theorem insertAll_empty_ranges_eq {rs rs' : List CompletedRange} {l l' : RangeList}
    {totalSize : Nat} (hok : empty.insertAll totalSize rs = .ok l)
    (hok' : empty.insertAll totalSize rs' = .ok l') (hcov : covered rs = covered rs') :
    l.ranges = l'.ranges := by
  obtain ⟨h, hc, -⟩ := insertAll_spec (WellFormed.empty totalSize) hok
  obtain ⟨h', hc', -⟩ := insertAll_spec (WellFormed.empty totalSize) hok'
  refine h.canonical.eq_of_covered_eq h'.canonical ?_
  rw [hc, hc', hcov]

end RangeList

end GridFlux
