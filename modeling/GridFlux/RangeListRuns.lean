/-
GridFlux/RangeListRuns.lean

`RangeList` over whole sequences of calls.

Starting from the empty list, any calls of `insert` and `merge` with one
`totalSize` are made, with any arguments; a call that fails leaves the list
alone.  Such a list is well-formed (`wellFormed_of_reachable`), and a well-formed
list is determined by the bytes it covers (`WellFormed.eq_of_covered`).  No number
in it exceeds `totalSize` (`WellFormed.bytesCompleted_le`), so the 64 bit
arithmetic of the source never wraps.
-/
import GridFlux.RangeList
import GridFlux.Transition

namespace GridFlux

open HalfOpen Transition

namespace RangeList

/-! ### Calls -/

/-- A call of `insert` or `merge`. -/
inductive Call
  | insert (offset length : Nat)
  | merge (offset length : Nat)

def Call.offset : Call → Nat
  | .insert offset _ => offset
  | .merge offset _ => offset

def Call.length : Call → Nat
  | .insert _ length => length
  | .merge _ length => length

/-- The bytes the call is about. -/
def Call.bytes (call : Call) : Set Nat := Set.Ico call.offset (call.offset + call.length)

def run (l : RangeList) (totalSize : Nat) : Call → Except Status RangeList
  | .insert offset length => l.insert offset length totalSize
  | .merge offset length => l.merge offset length totalSize

/-- The list after the call. -/
def after (l : RangeList) (totalSize : Nat) (call : Call) : RangeList :=
  match l.run totalSize call with
  | .ok l' => l'
  | .error _ => l

theorem after_ok {l l' : RangeList} {totalSize : Nat} {call : Call}
    (h : l.run totalSize call = .ok l') : l.after totalSize call = l' := by
  rw [after, h]

theorem after_error {l : RangeList} {totalSize : Nat} {call : Call} {e : Status}
    (h : l.run totalSize call = .error e) : l.after totalSize call = l := by
  rw [after, h]

/-- The lists of a transfer of `totalSize` bytes. -/
def lists (totalSize : Nat) : System RangeList Call where
  initial l := l = empty
  step call l l' := l' = l.after totalSize call

/-! ### What a call does -/

section Calls

variable {l l' : RangeList} {totalSize : Nat} {call : Call}

/-- When a call succeeds. -/
def Accepted (l : RangeList) (totalSize : Nat) (call : Call) : Prop :=
  0 < call.length ∧ call.offset + call.length ≤ totalSize ∧
    match call with
    | .insert _ _ => ∀ x ∈ call.bytes, x ∉ covered l.ranges
    | .merge _ _ => True

theorem WellFormed.run_ok (h : l.WellFormed totalSize) (hok : l.run totalSize call = .ok l') :
    l.Accepted totalSize call ∧ l'.WellFormed totalSize ∧
      covered l'.ranges = covered l.ranges ∪ call.bytes := by
  cases call with
  | insert offset length =>
      obtain ⟨hlength, hbound, hdisjoint⟩ := disjoint_of_insert h hok
      obtain ⟨h', hcovered, -⟩ := insert_spec h hok
      exact ⟨⟨hlength, hbound, fun x hx hin => Set.disjoint_left.mp hdisjoint hin hx⟩, h', hcovered⟩
  | merge offset length =>
      obtain ⟨hlength, hbound, h', hcovered⟩ := merge_spec h hok
      exact ⟨⟨hlength, hbound, trivial⟩, h', hcovered⟩

theorem WellFormed.run_of_accepted (h : l.WellFormed totalSize) (hcall : l.Accepted totalSize call) :
    ∃ l', l.run totalSize call = .ok l' := by
  obtain ⟨hlength, hbound, hnew⟩ := hcall
  cases call with
  | insert offset length =>
      obtain ⟨l', hok, -⟩ := insert_of_disjoint h hlength hbound
        (Set.disjoint_left.mpr fun x hin hx => hnew x hx hin)
      exact ⟨l', hok⟩
  | merge offset length =>
      obtain ⟨l', hok, -⟩ := merge_of_bound h hlength hbound
      exact ⟨l', hok⟩

/-- **Any call** leaves a well-formed list. -/
theorem WellFormed.after (h : l.WellFormed totalSize) (call : Call) :
    (l.after totalSize call).WellFormed totalSize := by
  cases hrun : l.run totalSize call with
  | error e =>
      rw [after_error hrun]
      exact h
  | ok l' =>
      rw [after_ok hrun]
      exact (h.run_ok hrun).2.1

theorem wellFormed_of_reachable (h : (lists totalSize).Reachable l) : l.WellFormed totalSize := by
  apply h.invariant
  · rintro l rfl
    exact WellFormed.empty totalSize
  · rintro call l l' - hl rfl
    exact hl.after call

/-- The count of a canonical list inside `[0, n)`. -/
theorem totalLength_le {ranges : List CompletedRange} (h : Canonical ranges) {m n : Nat}
    (hbegin : ∀ r ∈ ranges, m ≤ r.begin) (hend : ∀ r ∈ ranges, r.end ≤ n) :
    totalLength ranges ≤ n - m := by
  induction ranges generalizing m with
  | nil => exact Nat.zero_le _
  | cons r ranges ih =>
      obtain ⟨hr, hgap, hrest⟩ := canonical_cons.mp h
      have hm := hbegin r List.mem_cons_self
      have hn := hend r List.mem_cons_self
      have hle := @ih hrest r.end (fun s hs => (hgap s hs).le)
        fun s hs => hend s (List.mem_cons_of_mem r hs)
      rw [totalLength_cons]
      omega

theorem WellFormed.bytesCompleted_le (h : l.WellFormed totalSize) : l.bytesCompleted ≤ totalSize := by
  rw [h.bytes_eq]
  exact totalLength_le h.canonical (fun _ _ => Nat.zero_le _) h.bounded

/-- **A well-formed list is determined by its bytes.** -/
theorem WellFormed.eq_of_covered (h : l.WellFormed totalSize) (h' : l'.WellFormed totalSize)
    (hcovered : covered l.ranges = covered l'.ranges) : l = l' := by
  have hranges := h.canonical.eq_of_covered_eq h'.canonical hcovered
  have hbytes : l.bytesCompleted = l'.bytesCompleted := by
    rw [h.bytes_eq, h'.bytes_eq, hranges]
  cases l
  cases l'
  exact congrArg₂ RangeList.mk hranges hbytes

end Calls

/-! ### Whole sequences -/

section Sequences

variable {totalSize : Nat}

/-- **The representation of a range list, and what calls do to its bytes.** -/
theorem rangeList_represents {l : RangeList} (h : (lists totalSize).Reachable l) :
    (∀ r ∈ l.ranges, r.begin < r.end ∧ r.end ≤ totalSize) ∧
      (l.ranges.Pairwise fun a b => a.end < b.begin) ∧
      l.bytesCompleted = (l.ranges.map fun r => r.end - r.begin).sum ∧
      l.bytesCompleted ≤ totalSize ∧
      ∀ call : Call,
        (isOk (l.run totalSize call) = true ↔ l.Accepted totalSize call) ∧
        (isOk (l.run totalSize call) = true →
          covered (l.after totalSize call).ranges = covered l.ranges ∪ call.bytes) ∧
        (isOk (l.run totalSize call) = false → l.after totalSize call = l) := by
  have hl := wellFormed_of_reachable h
  refine ⟨fun r hr => ⟨hl.canonical.nonempty r hr, hl.bounded r hr⟩, hl.canonical.gapped,
    hl.bytes_eq, hl.bytesCompleted_le, fun call => ?_⟩
  cases hrun : l.run totalSize call with
  | ok l' =>
      obtain ⟨haccepted, -, hcovered⟩ := hl.run_ok hrun
      rw [after_ok hrun]
      exact ⟨⟨fun _ => haccepted, fun _ => rfl⟩, fun _ => hcovered, fun hfail => (by cases hfail)⟩
  | error e =>
      rw [after_error hrun]
      refine ⟨⟨fun hok => (by cases hok), fun haccepted => ?_⟩, fun hok => (by cases hok),
        fun _ => rfl⟩
      obtain ⟨l', hok⟩ := hl.run_of_accepted haccepted
      rw [hrun] at hok
      cases hok

/-- A list that two calls built, the second reaching back into the first. -/
theorem reachable_merged : (lists 10).Reachable ⟨[⟨0, 6⟩], 6⟩ := by
  have hinsert : (lists 10).step (.insert 0 3) empty ⟨[⟨0, 3⟩], 3⟩ := rfl
  have hmerge : (lists 10).step (.merge 2 4) ⟨[⟨0, 3⟩], 3⟩ ⟨[⟨0, 6⟩], 6⟩ := rfl
  exact .step (.step (.initial rfl) hinsert) hmerge

theorem rangeList_represents_merged :
    (⟨[⟨0, 6⟩], 6⟩ : RangeList).bytesCompleted ≤ 10 ∧
      isOk ((⟨[⟨0, 6⟩], 6⟩ : RangeList).run 10 (.insert 5 1)) = false :=
  ⟨(rangeList_represents reachable_merged).2.2.2.1, rfl⟩

/-- **`missingRanges` completes the list**: every byte of the transfer is in one
of the two and in one only. -/
theorem missingRanges_partition {l : RangeList} (h : (lists totalSize).Reachable l) :
    (∀ r ∈ l.missingRanges totalSize, r.begin < r.end) ∧
      ((l.missingRanges totalSize).Pairwise fun a b => a.end < b.begin) ∧
      ∀ x,
        (x < totalSize ↔ x ∈ covered l.ranges ∨ x ∈ covered (l.missingRanges totalSize)) ∧
        ¬(x ∈ covered l.ranges ∧ x ∈ covered (l.missingRanges totalSize)) := by
  have hl := wellFormed_of_reachable h
  have hmissing := canonical_missingRanges hl
  refine ⟨hmissing.nonempty, hmissing.gapped, fun x => ?_⟩
  rw [covered_missingRanges hl]
  constructor
  · constructor
    · intro hx
      by_cases hin : x ∈ covered l.ranges
      · exact Or.inl hin
      · exact Or.inr ⟨⟨Nat.zero_le x, hx⟩, hin⟩
    · rintro (⟨r, hr, -, hlt⟩ | hmiss)
      · exact hlt.trans_le (hl.bounded r hr)
      · exact hmiss.1.2
  · rintro ⟨hin, hmiss⟩
    exact hmiss.2 hin

theorem missingRanges_partition_merged :
    (⟨[⟨0, 6⟩], 6⟩ : RangeList).missingRanges 10 = [⟨6, 10⟩] ∧
      (9 < 10 ↔ 9 ∈ covered (⟨[⟨0, 6⟩], 6⟩ : RangeList).ranges ∨
        9 ∈ covered ((⟨[⟨0, 6⟩], 6⟩ : RangeList).missingRanges 10)) :=
  ⟨rfl, ((missingRanges_partition reachable_merged).2.2 9).1⟩

end Sequences

/-! ### Two sequences -/

/-- Make the calls one after the other, stopping at the first that fails. -/
def runAll (l : RangeList) (totalSize : Nat) : List Call → Except Status RangeList
  | [] => .ok l
  | call :: calls => do
      let l' ← l.run totalSize call
      runAll l' totalSize calls

/-- The same bytes, merged. -/
def Call.asMerge (call : Call) : Call := .merge call.offset call.length

theorem Call.bytes_asMerge (call : Call) : call.asMerge.bytes = call.bytes := by
  cases call with
  | insert offset length => rfl
  | merge offset length => rfl

section Pairs

variable {l l' : RangeList} {totalSize : Nat}

theorem reachable_of_runAll {calls : List Call} (h : (lists totalSize).Reachable l)
    (hok : l.runAll totalSize calls = .ok l') : (lists totalSize).Reachable l' := by
  induction calls generalizing l with
  | nil =>
      obtain rfl := Except.ok.inj hok
      exact h
  | cons call calls ih =>
      obtain ⟨l₁, hrun, hok⟩ := bind_eq_ok.mp hok
      have hstep : (lists totalSize).step call l l₁ := (after_ok hrun).symm
      exact ih (.step h hstep) hok

/-- A successful insert could have been a merge. -/
theorem WellFormed.run_asMerge {call : Call} (h : l.WellFormed totalSize)
    (hok : l.run totalSize call = .ok l') : l.run totalSize call.asMerge = .ok l' := by
  obtain ⟨⟨hlength, hbound, -⟩, hl', hcovered⟩ := h.run_ok hok
  obtain ⟨l'', hmerge⟩ := h.run_of_accepted (show l.Accepted totalSize call.asMerge from
    ⟨hlength, hbound, trivial⟩)
  obtain ⟨-, hl'', hcovered'⟩ := h.run_ok hmerge
  rw [call.bytes_asMerge] at hcovered'
  rw [hmerge, hl''.eq_of_covered hl' (hcovered'.trans hcovered.symm)]

theorem WellFormed.runAll_asMerge {calls : List Call} (h : l.WellFormed totalSize)
    (hok : l.runAll totalSize calls = .ok l') :
    l.runAll totalSize (calls.map Call.asMerge) = .ok l' := by
  induction calls generalizing l with
  | nil => exact hok
  | cons call calls ih =>
      obtain ⟨l₁, hrun, hok⟩ := bind_eq_ok.mp hok
      exact bind_eq_ok.mpr ⟨l₁, h.run_asMerge hrun, ih (h.run_ok hrun).2.1 hok⟩

/-- Two inserts that succeed in one order succeed in the other, to the same
list. -/
theorem WellFormed.insert_swap {o n o' n' : Nat} {l₁ l₂ : RangeList} (h : l.WellFormed totalSize)
    (hfirst : l.run totalSize (.insert o n) = .ok l₁)
    (hsecond : l₁.run totalSize (.insert o' n') = .ok l₂) :
    ∃ l₁', l.run totalSize (.insert o' n') = .ok l₁' ∧
      l₁'.run totalSize (.insert o n) = .ok l₂ := by
  obtain ⟨⟨hn, ho, hnew⟩, hl₁, hcovered₁⟩ := h.run_ok hfirst
  obtain ⟨⟨hn', ho', hnew'⟩, hl₂, hcovered₂⟩ := hl₁.run_ok hsecond
  -- the second range avoids the stored bytes and the first range
  have hdisjoint : ∀ x ∈ (Call.insert o' n').bytes,
      x ∉ covered l.ranges ∧ x ∉ (Call.insert o n).bytes := by
    intro x hx
    have hout := hnew' x hx
    rw [hcovered₁] at hout
    exact ⟨fun hin => hout (Or.inl hin), fun hin => hout (Or.inr hin)⟩
  obtain ⟨l₁', hfirst'⟩ := h.run_of_accepted (show l.Accepted totalSize (.insert o' n') from
    ⟨hn', ho', fun x hx => (hdisjoint x hx).1⟩)
  obtain ⟨-, hl₁', hcovered₁'⟩ := h.run_ok hfirst'
  have hstill : ∀ x ∈ (Call.insert o n).bytes, x ∉ covered l₁'.ranges := by
    intro x hx hin
    rw [hcovered₁'] at hin
    rcases hin with hin | hin
    · exact hnew x hx hin
    · exact (hdisjoint x hin).2 hx
  obtain ⟨l₂', hsecond'⟩ := hl₁'.run_of_accepted
    (show l₁'.Accepted totalSize (.insert o n) from ⟨hn, ho, hstill⟩)
  obtain ⟨-, hl₂', hcovered₂'⟩ := hl₁'.run_ok hsecond'
  have heq : l₂' = l₂ := by
    apply hl₂'.eq_of_covered hl₂
    rw [hcovered₂', hcovered₁', hcovered₂, hcovered₁, Set.union_right_comm]
  exact ⟨l₁', hfirst', heq ▸ hsecond'⟩

/-- Inserts succeed in any order, to the same list. -/
theorem WellFormed.runAll_perm {ranges ranges' : List (Nat × Nat)} (hperm : ranges.Perm ranges')
    (h : l.WellFormed totalSize)
    (hok : l.runAll totalSize (ranges.map fun r => .insert r.1 r.2) = .ok l') :
    l.runAll totalSize (ranges'.map fun r => .insert r.1 r.2) = .ok l' := by
  induction hperm generalizing l with
  | nil => exact hok
  | cons r _ ih =>
      obtain ⟨l₁, hrun, hok⟩ := bind_eq_ok.mp hok
      exact bind_eq_ok.mpr ⟨l₁, hrun, ih (h.run_ok hrun).2.1 hok⟩
  | swap r s ranges =>
      obtain ⟨l₁, hfirst, hok⟩ := bind_eq_ok.mp hok
      obtain ⟨l₂, hsecond, hok⟩ := bind_eq_ok.mp hok
      obtain ⟨l₁', hfirst', hsecond'⟩ := h.insert_swap hfirst hsecond
      exact bind_eq_ok.mpr ⟨l₁', hfirst', bind_eq_ok.mpr ⟨l₂, hsecond', hok⟩⟩
  | trans _ _ ih ih' => exact ih' h (ih h hok)

/-- **Range lists are canonical**: lists that cover the same bytes are equal,
whatever calls built them; inserts may come in any order, and may be merges. -/
theorem rangeLists_canonical (totalSize : Nat) :
    (∀ calls calls' : List Call, ∀ l l' : RangeList,
      empty.runAll totalSize calls = .ok l → empty.runAll totalSize calls' = .ok l' →
        covered l.ranges = covered l'.ranges →
          l.ranges = l'.ranges ∧ l.bytesCompleted = l'.bytesCompleted) ∧
      (∀ ranges ranges' : List (Nat × Nat), ∀ l : RangeList, ranges.Perm ranges' →
        empty.runAll totalSize (ranges.map fun r => .insert r.1 r.2) = .ok l →
          empty.runAll totalSize (ranges'.map fun r => .insert r.1 r.2) = .ok l) ∧
      ∀ calls : List Call, ∀ l : RangeList, empty.runAll totalSize calls = .ok l →
        empty.runAll totalSize (calls.map Call.asMerge) = .ok l := by
  have hempty := WellFormed.empty totalSize
  have hstart : (lists totalSize).Reachable empty := .initial rfl
  refine ⟨?_, ?_, ?_⟩
  · intro calls calls' l l' hok hok' hcovered
    have hl := wellFormed_of_reachable (reachable_of_runAll hstart hok)
    have hl' := wellFormed_of_reachable (reachable_of_runAll hstart hok')
    obtain rfl := hl.eq_of_covered hl' hcovered
    exact ⟨rfl, rfl⟩
  · intro ranges ranges' l hperm hok
    exact hempty.runAll_perm hperm hok
  · intro calls l hok
    exact hempty.runAll_asMerge hok

theorem rangeLists_canonical_swapped :
    empty.runAll 10 [.insert 4 2, .insert 0 4] = .ok ⟨[⟨0, 6⟩], 6⟩ :=
  (rangeLists_canonical 10).2.1 [(0, 4), (4, 2)] [(4, 2), (0, 4)] ⟨[⟨0, 6⟩], 6⟩
    (List.Perm.swap _ _ _) rfl

end Pairs

end RangeList

end GridFlux
