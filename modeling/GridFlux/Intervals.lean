/-
GridFlux/Intervals.lean

A small library on lists of half-open intervals over a linear order.  It
names nothing of the transfer code.

A list is *canonical* when every interval is non-empty and consecutive
intervals leave a gap between them.  Canonical lists are normal forms: two
canonical lists that cover the same points are equal
(`Canonical.eq_of_covered_eq`), so any two algorithms that keep a list
canonical and cover the same set agree on the nose.

`gaps lo hi l` lists what `l` leaves uncovered inside `[lo, hi)`.
-/
import Mathlib.Data.Set.Lattice
import Mathlib.Data.List.Pairwise
import Mathlib.Order.Interval.Set.Basic
import Mathlib.Data.Set.Card
import Mathlib.Order.Interval.Finset.Nat
import Mathlib.Order.CompletePartialOrder

namespace HalfOpen

/-- A half-open interval `[begin, end)`; nothing forces `begin < end`. -/
structure Interval (α : Type*) where
  begin : α
  «end» : α
deriving DecidableEq, Repr

variable {α : Type*} [LinearOrder α]

/-! ### Covered points and canonical lists -/

/-- The points covered by some interval of the list. -/
def covered (l : List (Interval α)) : Set α :=
  {x | ∃ r ∈ l, r.begin ≤ x ∧ x < r.end}

theorem mem_covered {l : List (Interval α)} {x : α} :
    x ∈ covered l ↔ ∃ r ∈ l, r.begin ≤ x ∧ x < r.end := Iff.rfl

@[simp] theorem covered_nil : covered ([] : List (Interval α)) = ∅ := by
  ext x
  simp [covered]

@[simp] theorem covered_cons (r : Interval α) (l : List (Interval α)) :
    covered (r :: l) = Set.Ico r.begin r.end ∪ covered l := by
  ext x
  simp [covered]

@[simp] theorem covered_append (l l' : List (Interval α)) :
    covered (l ++ l') = covered l ∪ covered l' := by
  ext x
  simp only [covered, List.mem_append, Set.mem_ofPred_eq, Set.mem_union, or_and_right,
    exists_or]

theorem covered_mono {l l' : List (Interval α)} (h : ∀ r ∈ l, r ∈ l') :
    covered l ⊆ covered l' := by
  rintro x ⟨r, hr, hx⟩
  exact ⟨r, h r hr, hx⟩

theorem covered_perm {l l' : List (Interval α)} (h : l.Perm l') :
    covered l = covered l' :=
  Set.Subset.antisymm (covered_mono fun _ hr => h.mem_iff.mp hr)
    (covered_mono fun _ hr => h.mem_iff.mpr hr)

/-- Non-empty intervals in increasing order, with a gap between any two. -/
structure Canonical (l : List (Interval α)) : Prop where
  nonempty : ∀ r ∈ l, r.begin < r.end
  gapped : l.Pairwise fun a b => a.end < b.begin

theorem Canonical.nil : Canonical ([] : List (Interval α)) :=
  ⟨by simp, List.Pairwise.nil⟩

theorem canonical_cons {r : Interval α} {l : List (Interval α)} :
    Canonical (r :: l) ↔
      r.begin < r.end ∧ (∀ b ∈ l, r.end < b.begin) ∧ Canonical l := by
  constructor
  · rintro ⟨hne, hgap⟩
    rw [List.pairwise_cons] at hgap
    exact ⟨hne r (by simp), hgap.1, fun s hs => hne s (by simp [hs]), hgap.2⟩
  · rintro ⟨hr, hgap, hl⟩
    refine ⟨?_, List.pairwise_cons.mpr ⟨hgap, hl.gapped⟩⟩
    intro s hs
    rcases List.mem_cons.mp hs with rfl | hs
    · exact hr
    · exact hl.nonempty s hs

theorem canonical_append {l l' : List (Interval α)} :
    Canonical (l ++ l') ↔
      Canonical l ∧ Canonical l' ∧ ∀ a ∈ l, ∀ b ∈ l', a.end < b.begin := by
  constructor
  · rintro ⟨hne, hgap⟩
    rw [List.pairwise_append] at hgap
    exact ⟨⟨fun r hr => hne r (by simp [hr]), hgap.1⟩,
      ⟨fun r hr => hne r (by simp [hr]), hgap.2.1⟩, hgap.2.2⟩
  · rintro ⟨hl, hl', hgap⟩
    refine ⟨?_, List.pairwise_append.mpr ⟨hl.gapped, hl'.gapped, hgap⟩⟩
    intro r hr
    rcases List.mem_append.mp hr with hr | hr
    · exact hl.nonempty r hr
    · exact hl'.nonempty r hr

theorem Canonical.sublist {l l' : List (Interval α)} (h : Canonical l)
    (hs : l'.Sublist l) : Canonical l' :=
  ⟨fun r hr => h.nonempty r (hs.subset hr), h.gapped.sublist hs⟩

/-! ### Ordered lists -/

/-- Non-empty intervals in increasing order; neighbours may touch. -/
structure Ordered (l : List (Interval α)) : Prop where
  nonempty : ∀ r ∈ l, r.begin < r.end
  sorted : l.Pairwise fun a b => a.end ≤ b.begin

theorem Ordered.nil : Ordered ([] : List (Interval α)) :=
  ⟨by simp, List.Pairwise.nil⟩

theorem Canonical.ordered {l : List (Interval α)} (h : Canonical l) : Ordered l :=
  ⟨h.nonempty, h.gapped.imp fun hab => hab.le⟩

theorem ordered_cons {r : Interval α} {l : List (Interval α)} :
    Ordered (r :: l) ↔
      r.begin < r.end ∧ (∀ b ∈ l, r.end ≤ b.begin) ∧ Ordered l := by
  constructor
  · rintro ⟨hne, hsorted⟩
    rw [List.pairwise_cons] at hsorted
    exact ⟨hne r (by simp), hsorted.1, fun s hs => hne s (by simp [hs]), hsorted.2⟩
  · rintro ⟨hr, hafter, hl⟩
    refine ⟨?_, List.pairwise_cons.mpr ⟨hafter, hl.sorted⟩⟩
    intro s hs
    rcases List.mem_cons.mp hs with rfl | hs
    · exact hr
    · exact hl.nonempty s hs

theorem ordered_append {l l' : List (Interval α)} :
    Ordered (l ++ l') ↔
      Ordered l ∧ Ordered l' ∧ ∀ a ∈ l, ∀ b ∈ l', a.end ≤ b.begin := by
  constructor
  · rintro ⟨hne, hsorted⟩
    rw [List.pairwise_append] at hsorted
    exact ⟨⟨fun r hr => hne r (by simp [hr]), hsorted.1⟩,
      ⟨fun r hr => hne r (by simp [hr]), hsorted.2.1⟩, hsorted.2.2⟩
  · rintro ⟨hl, hl', hbetween⟩
    refine ⟨?_, List.pairwise_append.mpr ⟨hl.sorted, hl'.sorted, hbetween⟩⟩
    intro r hr
    rcases List.mem_append.mp hr with hr | hr
    · exact hl.nonempty r hr
    · exact hl'.nonempty r hr

/-- A new interval between the two halves of an ordered list. -/
theorem Ordered.insert {l l' : List (Interval α)} {r : Interval α} (h : Ordered (l ++ l'))
    (hr : r.begin < r.end) (hbefore : ∀ a ∈ l, a.end ≤ r.begin)
    (hafter : ∀ b ∈ l', r.end ≤ b.begin) : Ordered (l ++ r :: l') := by
  obtain ⟨hl, hl', hbetween⟩ := ordered_append.mp h
  refine ordered_append.mpr ⟨hl, ordered_cons.mpr ⟨hr, hafter, hl'⟩, ?_⟩
  intro a ha b hb
  rcases List.mem_cons.mp hb with rfl | hb
  · exact hbefore a ha
  · exact hbetween a ha b hb

/-- An ordered list that covers one whole interval starts where it starts, and
the rest covers what is left of it. -/
theorem Ordered.head_of_covered_Ico {r : Interval α} {l : List (Interval α)} {lo hi : α}
    (h : Ordered (r :: l)) (hcovered : covered (r :: l) = Set.Ico lo hi) :
    r.begin = lo ∧ r.end ≤ hi ∧ covered l = Set.Ico r.end hi := by
  obtain ⟨hr, hafter, hl⟩ := ordered_cons.mp h
  have hbegin : r.begin ∈ Set.Ico lo hi := hcovered ▸ ⟨r, by simp, le_refl _, hr⟩
  have hleast : ∀ x ∈ covered (r :: l), r.begin ≤ x := by
    rintro x ⟨s, hs, hsx, -⟩
    rcases List.mem_cons.mp hs with rfl | hs
    · exact hsx
    · exact (hr.le.trans (hafter s hs)).trans hsx
  have hlo : r.begin = lo := by
    apply le_antisymm _ hbegin.1
    apply hleast
    rw [hcovered]
    exact ⟨le_refl _, hbegin.1.trans_lt hbegin.2⟩
  have hend : r.end ≤ hi := by
    by_contra hlt
    have hin : hi ∈ covered (r :: l) := ⟨r, by simp, hbegin.2.le, not_le.mp hlt⟩
    rw [hcovered] at hin
    exact lt_irrefl _ hin.2
  refine ⟨hlo, hend, ?_⟩
  ext x
  constructor
  · rintro ⟨s, hs, hsx⟩
    have hx : x ∈ Set.Ico lo hi := hcovered ▸ ⟨s, List.mem_cons_of_mem r hs, hsx⟩
    exact ⟨(hafter s hs).trans hsx.1, hx.2⟩
  · rintro ⟨hge, hlt⟩
    have hx : x ∈ covered (r :: l) := by
      rw [hcovered]
      exact ⟨hbegin.1.trans (hr.le.trans hge), hlt⟩
    rw [covered_cons] at hx
    rcases hx with hx | hx
    · exact absurd hx.2 (not_lt.mpr hge)
    · exact hx

/-! ### Canonical lists are normal forms -/

theorem Canonical.begin_mem_covered {r : Interval α} {l : List (Interval α)}
    (h : Canonical (r :: l)) : r.begin ∈ covered (r :: l) :=
  ⟨r, by simp, le_refl _, h.nonempty r (by simp)⟩

theorem Canonical.begin_le {r : Interval α} {l : List (Interval α)}
    (h : Canonical (r :: l)) {x : α} (hx : x ∈ covered (r :: l)) : r.begin ≤ x := by
  obtain ⟨hr, hgap, -⟩ := canonical_cons.mp h
  obtain ⟨s, hs, hle, -⟩ := hx
  rcases List.mem_cons.mp hs with rfl | hs
  · exact hle
  · exact (hr.trans (hgap s hs)).le.trans hle

theorem Canonical.end_notMem {r : Interval α} {l : List (Interval α)}
    (h : Canonical (r :: l)) : r.end ∉ covered (r :: l) := by
  obtain ⟨-, hgap, -⟩ := canonical_cons.mp h
  rintro ⟨s, hs, hle, hlt⟩
  rcases List.mem_cons.mp hs with rfl | hs
  · exact lt_irrefl _ hlt
  · exact absurd hle (not_le.mpr (hgap s hs))

/-- The head of a canonical list is the first run of covered points, so its
end cannot lie before the end of the head of a list covering the same set. -/
theorem Canonical.head_end_le {r s : Interval α} {l l' : List (Interval α)}
    (h' : Canonical (s :: l'))
    (heq : covered (r :: l) = covered (s :: l')) (hb : r.begin = s.begin) :
    r.end ≤ s.end := by
  by_contra hlt
  have hs : s.begin < s.end := h'.nonempty s (by simp)
  have hmem : s.end ∈ covered (r :: l) :=
    ⟨r, by simp, hb ▸ hs.le, not_le.mp hlt⟩
  exact h'.end_notMem (heq ▸ hmem)

theorem Canonical.covered_tail {r : Interval α} {l : List (Interval α)}
    (h : Canonical (r :: l)) :
    covered l = covered (r :: l) \ Set.Ico r.begin r.end := by
  obtain ⟨hr, hgap, -⟩ := canonical_cons.mp h
  rw [covered_cons, Set.union_sdiff_left]
  refine (sdiff_eq_left.mpr ?_).symm
  rw [Set.disjoint_left]
  rintro x ⟨s, hs, hle, -⟩ hx
  exact absurd (hle.trans_lt hx.2) (not_lt.mpr (hgap s hs).le)

/-- **Canonical lists are normal forms**: the covered set determines the
list. -/
theorem Canonical.eq_of_covered_eq {l l' : List (Interval α)} (h : Canonical l)
    (h' : Canonical l') (heq : covered l = covered l') : l = l' := by
  induction l generalizing l' with
  | nil =>
      rcases l' with - | ⟨s, l'⟩
      · rfl
      · have hmem := h'.begin_mem_covered
        rw [← heq] at hmem
        simp at hmem
  | cons r l ih =>
      rcases l' with - | ⟨s, l'⟩
      · have hmem := h.begin_mem_covered
        rw [heq] at hmem
        simp at hmem
      · have hb : r.begin = s.begin :=
          le_antisymm (h.begin_le (heq ▸ h'.begin_mem_covered))
            (h'.begin_le (heq ▸ h.begin_mem_covered))
        have he : r.end = s.end :=
          le_antisymm (h'.head_end_le heq hb) (h.head_end_le heq.symm hb.symm)
        have hrs : r = s := by
          rcases r with ⟨rb, re⟩
          rcases s with ⟨sb, se⟩
          simp only at hb he
          rw [hb, he]
        subst hrs
        refine congrArg (r :: ·) (ih (canonical_cons.mp h).2.2 (canonical_cons.mp h').2.2 ?_)
        rw [h.covered_tail, h'.covered_tail, heq]

/-! ### Complements -/

/-- The intervals `l` leaves uncovered between `lo` and `hi`, scanning from
the left. -/
def gaps (lo hi : α) : List (Interval α) → List (Interval α)
  | [] => if lo < hi then [⟨lo, hi⟩] else []
  | r :: l =>
      if lo < r.begin then ⟨lo, r.begin⟩ :: gaps (max lo r.end) hi l
      else gaps (max lo r.end) hi l

/-- Every interval of `gaps` starts at or after the scan position. -/
theorem le_begin_of_mem_gaps {lo hi : α} {l : List (Interval α)} {g : Interval α}
    (hg : g ∈ gaps lo hi l) : lo ≤ g.begin := by
  induction l generalizing lo with
  | nil =>
      simp only [gaps] at hg
      split at hg <;> simp_all
  | cons r l ih =>
      simp only [gaps] at hg
      split at hg
      · rcases List.mem_cons.mp hg with rfl | hg
        · exact le_refl _
        · exact (le_max_left _ _).trans (ih hg)
      · exact (le_max_left _ _).trans (ih hg)

/-- `gaps` of a canonical list inside `[lo, hi)` covers exactly the
complement. -/
theorem covered_gaps {lo hi : α} {l : List (Interval α)} (h : Canonical l)
    (hlo : ∀ r ∈ l, lo ≤ r.begin) (hhi : ∀ r ∈ l, r.end ≤ hi) :
    covered (gaps lo hi l) = Set.Ico lo hi \ covered l := by
  induction l generalizing lo with
  | nil =>
      by_cases hlt : lo < hi
      · simp [gaps, hlt]
      · simp [gaps, hlt]
  | cons r l ih =>
      obtain ⟨hr, hgap, hl⟩ := canonical_cons.mp h
      have hle : lo ≤ r.begin := hlo r (by simp)
      have hmax : max lo r.end = r.end := max_eq_right (hle.trans hr.le)
      have ih' := @ih r.end hl (fun s hs => (hgap s hs).le)
        (fun s hs => hhi s (by simp [hs]))
      have hend : r.end ≤ hi := hhi r (by simp)
      ext x
      have hx : x ∈ covered (gaps r.end hi l) ↔ x ∈ Set.Ico r.end hi \ covered l := by
        rw [ih']
      have hafter : x ∈ covered l → r.end ≤ x := by
        rintro ⟨s, hs, hsx, -⟩
        exact (hgap s hs).le.trans hsx
      simp only [Set.mem_sdiff, Set.mem_Ico] at hx
      by_cases hlt : lo < r.begin
      · simp only [gaps, hlt, if_true, hmax, covered_cons, Set.mem_union, hx, Set.mem_sdiff,
          Set.mem_Ico]
        grind
      · simp only [gaps, hlt, if_false, hmax, hx, covered_cons, Set.mem_union, Set.mem_sdiff,
          Set.mem_Ico]
        grind

/-- The gaps of a canonical list are themselves canonical. -/
theorem canonical_gaps {lo hi : α} {l : List (Interval α)} (h : Canonical l)
    (hlo : ∀ r ∈ l, lo ≤ r.begin) : Canonical (gaps lo hi l) := by
  induction l generalizing lo with
  | nil =>
      by_cases hlt : lo < hi
      · simp [gaps, hlt, canonical_cons, Canonical.nil]
      · simp [gaps, hlt, Canonical.nil]
  | cons r l ih =>
      obtain ⟨hr, hgap, hl⟩ := canonical_cons.mp h
      have hmax : max lo r.end = r.end := max_eq_right ((hlo r (by simp)).trans hr.le)
      have ih' := @ih r.end hl fun s hs => (hgap s hs).le
      simp only [gaps, hmax]
      split
      · rename_i hlt
        refine canonical_cons.mpr ⟨hlt, fun g hg => ?_, ih'⟩
        exact hr.trans_le (le_begin_of_mem_gaps hg)
      · exact ih'

/-! ### Pairwise disjoint lists in any order -/

/-- No two intervals of the list share a point; the order does not matter. -/
def Separated (l : List (Interval α)) : Prop :=
  l.Pairwise fun a b => a.end ≤ b.begin ∨ b.end ≤ a.begin

theorem Canonical.separated {l : List (Interval α)} (h : Canonical l) : Separated l :=
  h.gapped.imp fun hab => Or.inl hab.le

/-- Two non-empty intervals, one of them disjoint from a list that holds the
other, do not overlap. -/
theorem separated_of_disjoint {l : List (Interval α)} {r s : Interval α}
    (hr : r.begin < r.end) (hs : s.begin < s.end)
    (hdisjoint : Disjoint (covered l) (Set.Ico s.begin s.end)) (hmem : r ∈ l) :
    r.end ≤ s.begin ∨ s.end ≤ r.begin := by
  by_contra hne
  rw [not_or, not_le, not_le] at hne
  -- the larger of the two begins lies in both
  have hin : max r.begin s.begin ∈ covered l :=
    ⟨r, hmem, le_max_left _ _, max_lt hr hne.1⟩
  exact Set.disjoint_left.mp hdisjoint hin ⟨le_max_right _ _, max_lt hne.2 hs⟩

theorem Separated.sublist {l l' : List (Interval α)} (h : Separated l)
    (hs : l'.Sublist l) : Separated l' := List.Pairwise.sublist hs h

theorem Separated.perm {l l' : List (Interval α)} (h : Separated l) (hp : l.Perm l') :
    Separated l' :=
  (hp.pairwise_iff fun hab => hab.symm).mp h

/-- Among separated intervals a covered point has one owner. -/
theorem Separated.owner_unique {l : List (Interval α)} (h : Separated l) {x : α}
    {a b : Interval α} (ha : a ∈ l) (hb : b ∈ l) (hax : a.begin ≤ x ∧ x < a.end)
    (hbx : b.begin ≤ x ∧ x < b.end) : a = b := by
  by_contra hne
  have hsymm : Std.Symm fun a b : Interval α => a.end ≤ b.begin ∨ b.end ≤ a.begin :=
    ⟨fun _ _ hxy => hxy.symm⟩
  rcases List.Pairwise.forall h ha hb hne with hab | hab
  · exact absurd (hax.2.trans_le (hab.trans hbx.1)) (lt_irrefl _)
  · exact absurd (hbx.2.trans_le (hab.trans hax.1)) (lt_irrefl _)

/-! ### Cutting a list down to one interval -/

/-- The part of `s` inside `r`, unless there is none. -/
def meet? (r s : Interval α) : Option (Interval α) :=
  if max r.begin s.begin < min r.end s.end then
    some ⟨max r.begin s.begin, min r.end s.end⟩ else none

theorem meet?_eq_some {r s t : Interval α} :
    meet? r s = some t ↔ t.begin < t.end ∧ t.begin = max r.begin s.begin ∧
      t.end = min r.end s.end := by
  unfold meet?
  split
  · rename_i hlt
    constructor
    · intro h
      obtain rfl := Option.some.inj h
      exact ⟨hlt, rfl, rfl⟩
    · rintro ⟨-, hb, he⟩
      rw [← hb, ← he]
  · rename_i hlt
    constructor
    · intro h
      cases h
    · rintro ⟨hne, hb, he⟩
      rw [hb, he] at hne
      exact absurd hne hlt

/-- The parts of a list that lie inside `r`. -/
def meets (r : Interval α) (l : List (Interval α)) : List (Interval α) :=
  l.filterMap (meet? r)

theorem mem_meets {r t : Interval α} {l : List (Interval α)} (h : t ∈ meets r l) :
    t.begin < t.end ∧ r.begin ≤ t.begin ∧ t.end ≤ r.end := by
  obtain ⟨s, -, hs⟩ := List.mem_filterMap.mp h
  obtain ⟨hne, hb, he⟩ := meet?_eq_some.mp hs
  refine ⟨hne, ?_, ?_⟩
  · rw [hb]
    exact le_max_left _ _
  · rw [he]
    exact min_le_left _ _

theorem covered_meets (r : Interval α) (l : List (Interval α)) :
    covered (meets r l) = Set.Ico r.begin r.end ∩ covered l := by
  ext x
  constructor
  · rintro ⟨t, ht, hb, he⟩
    obtain ⟨s, hs, hst⟩ := List.mem_filterMap.mp ht
    obtain ⟨-, htb, hte⟩ := meet?_eq_some.mp hst
    rw [htb, max_le_iff] at hb
    rw [hte, lt_min_iff] at he
    exact ⟨⟨hb.1, he.1⟩, s, hs, hb.2, he.2⟩
  · rintro ⟨⟨hrb, hre⟩, s, hs, hsb, hse⟩
    have hin : max r.begin s.begin ≤ x ∧ x < min r.end s.end :=
      ⟨max_le hrb hsb, lt_min hre hse⟩
    refine ⟨⟨max r.begin s.begin, min r.end s.end⟩, List.mem_filterMap.mpr ⟨s, hs, ?_⟩, hin⟩
    exact meet?_eq_some.mpr ⟨hin.1.trans_lt hin.2, rfl, rfl⟩

/-- Cutting separated intervals leaves them separated. -/
theorem Separated.meets {l : List (Interval α)} (h : Separated l) (r : Interval α) :
    Separated (meets r l) := by
  refine List.Pairwise.filterMap (meet? r) (fun a b hab a' ha' b' hb' => ?_) h
  obtain ⟨-, hab', hae'⟩ := meet?_eq_some.mp ha'
  obtain ⟨-, hbb', hbe'⟩ := meet?_eq_some.mp hb'
  rw [hab', hae', hbb', hbe']
  rcases hab with hab | hab
  · exact Or.inl ((min_le_right _ _).trans (hab.trans (le_max_right _ _)))
  · exact Or.inr ((min_le_right _ _).trans (hab.trans (le_max_right _ _)))

theorem canonical_meets {l : List (Interval α)} (h : Canonical l) (r : Interval α) :
    Canonical (meets r l) := by
  refine ⟨fun t ht => (mem_meets ht).1, ?_⟩
  refine List.Pairwise.filterMap (meet? r) (fun a b hab a' ha' b' hb' => ?_) h.gapped
  obtain ⟨-, -, hae'⟩ := meet?_eq_some.mp ha'
  obtain ⟨-, hbb', -⟩ := meet?_eq_some.mp hb'
  rw [hae', hbb']
  exact (min_le_right _ _).trans_lt (hab.trans_le (le_max_right _ _))

/-- An interval that a canonical list covers is cut out of it whole. -/
theorem Canonical.meets_of_subset {l : List (Interval α)} (h : Canonical l) {r : Interval α}
    (hr : r.begin < r.end) (hsub : Set.Ico r.begin r.end ⊆ covered l) : meets r l = [r] := by
  refine (canonical_meets h r).eq_of_covered_eq (canonical_cons.mpr ⟨hr, by simp, .nil⟩) ?_
  rw [covered_meets, Set.inter_eq_self_of_subset_left hsub, covered_cons, covered_nil,
    Set.union_empty]

theorem Canonical.meets_of_disjoint {l : List (Interval α)} (h : Canonical l) {r : Interval α}
    (hdisjoint : Disjoint (covered l) (Set.Ico r.begin r.end)) : meets r l = [] := by
  refine (canonical_meets h r).eq_of_covered_eq .nil ?_
  rw [covered_meets, covered_nil]
  exact hdisjoint.symm.inter_eq

/-! ### Total length over the naturals -/

/-- The sum of the interval lengths. -/
def totalLength (l : List (Interval Nat)) : Nat :=
  (l.map fun r => r.end - r.begin).sum

@[simp] theorem totalLength_nil : totalLength [] = 0 := rfl

@[simp] theorem totalLength_cons (r : Interval Nat) (l : List (Interval Nat)) :
    totalLength (r :: l) = (r.end - r.begin) + totalLength l := by
  simp [totalLength]

@[simp] theorem totalLength_append (l l' : List (Interval Nat)) :
    totalLength (l ++ l') = totalLength l + totalLength l' := by
  simp [totalLength]

theorem totalLength_perm {l l' : List (Interval Nat)} (h : l.Perm l') :
    totalLength l = totalLength l' :=
  (h.map _).sum_eq

/-! ### Unions of cells

The naturals below `total` fall into cells of `size`, the last one possibly
shorter. -/

/-- A set that holds all of a cell below `total` or nothing of it. -/
def CellUnion (size total : Nat) (S : Set Nat) : Prop :=
  ∀ x y, x < total → y < total → x / size = y / size → (x ∈ S ↔ y ∈ S)

theorem CellUnion.empty (size total : Nat) : CellUnion size total ∅ :=
  fun _ _ _ _ _ => Iff.rfl

theorem CellUnion.union {size total : Nat} {S T : Set Nat} (hS : CellUnion size total S)
    (hT : CellUnion size total T) : CellUnion size total (S ∪ T) := fun x y hx hy hxy =>
  or_congr (hS x y hx hy hxy) (hT x y hx hy hxy)

theorem CellUnion.diff {size total : Nat} {S : Set Nat} (hS : CellUnion size total S) :
    CellUnion size total (Set.Ico 0 total \ S) := by
  intro x y hx hy hxy
  constructor
  · rintro ⟨-, hnot⟩
    exact ⟨⟨Nat.zero_le _, hy⟩, fun h => hnot ((hS x y hx hy hxy).mpr h)⟩
  · rintro ⟨-, hnot⟩
    exact ⟨⟨Nat.zero_le _, hx⟩, fun h => hnot ((hS x y hx hy hxy).mp h)⟩

/-- A list is a union of cells if each of its intervals is. -/
theorem CellUnion.covered {size total : Nat} {l : List (Interval Nat)}
    (h : ∀ r ∈ l, CellUnion size total (Set.Ico r.begin r.end)) :
    CellUnion size total (covered l) := by
  intro x y hx hy hxy
  constructor
  · rintro ⟨r, hr, hxr⟩
    exact ⟨r, hr, (h r hr x y hx hy hxy).mp hxr⟩
  · rintro ⟨r, hr, hyr⟩
    exact ⟨r, hr, (h r hr x y hx hy hxy).mpr hyr⟩

/-- Two intervals of a canonical list are one or have a gap between them. -/
theorem Canonical.eq_or_gap {l : List (Interval Nat)} (h : Canonical l) {r s : Interval Nat}
    (hr : r ∈ l) (hs : s ∈ l) : r = s ∨ r.end < s.begin ∨ s.end < r.begin := by
  have hsymm : Std.Symm fun a b : Interval Nat => a.end < b.begin ∨ b.end < a.begin :=
    ⟨fun _ _ hab => hab.symm⟩
  have hgapped : l.Pairwise fun a b => a.end < b.begin ∨ b.end < a.begin :=
    h.gapped.imp fun hab => Or.inl hab
  by_cases heq : r = s
  · exact Or.inl heq
  · exact Or.inr (hgapped.forall hr hs heq)

/-- The point before an interval of a canonical list is not covered. -/
theorem Canonical.pred_begin_notMem {l : List (Interval Nat)} (h : Canonical l) {r : Interval Nat}
    (hr : r ∈ l) (hpos : 0 < r.begin) : r.begin - 1 ∉ HalfOpen.covered l := by
  rintro ⟨s, hs, hb, he⟩
  have hne := h.nonempty r hr
  rcases h.eq_or_gap hr hs with rfl | hgap
  · omega
  · omega

/-- The point after it is not covered either. -/
theorem Canonical.end_notMem_of_mem {l : List (Interval Nat)} (h : Canonical l)
    {r : Interval Nat} (hr : r ∈ l) : r.end ∉ HalfOpen.covered l := by
  rintro ⟨s, hs, hb, he⟩
  have hne := h.nonempty r hr
  rcases h.eq_or_gap hr hs with rfl | hgap
  · omega
  · omega

/-- A canonical union of cells, cut down to a union of cells, is cut between
cells. -/
theorem Canonical.meets_cellUnion {size total : Nat} {l : List (Interval Nat)} {c t : Interval Nat}
    (h : Canonical l) (hl : CellUnion size total (HalfOpen.covered l))
    (hc : CellUnion size total (Set.Ico c.begin c.end)) (ht : t ∈ meets c l) :
    CellUnion size total (Set.Ico t.begin t.end) := by
  obtain ⟨r, hr, hmeet⟩ := List.mem_filterMap.mp ht
  obtain ⟨hne, hb, he⟩ := meet?_eq_some.mp hmeet
  have hstay : ∀ x y, x < total → y < total → x / size = y / size →
      x ∈ Set.Ico t.begin t.end → y ∈ Set.Ico t.begin t.end := by
    intro x y hx hy hxy hxt
    have hxc : x ∈ Set.Ico c.begin c.end := by
      rw [Set.mem_Ico, hb, he] at hxt
      exact ⟨(le_max_left _ _).trans hxt.1, hxt.2.trans_le (min_le_left _ _)⟩
    have hxr : x ∈ Set.Ico r.begin r.end := by
      rw [Set.mem_Ico, hb, he] at hxt
      exact ⟨(le_max_right _ _).trans hxt.1, hxt.2.trans_le (min_le_right _ _)⟩
    have hyc := (hc x y hx hy hxy).mp hxc
    have hxl : x ∈ HalfOpen.covered l := ⟨r, hr, hxr⟩
    -- between `x` and `y` there is the same cell all along, so no end of `r`
    have hyr : r.begin ≤ y ∧ y < r.end := by
      constructor
      · by_contra hlt
        rw [not_le] at hlt
        have hcell : (r.begin - 1) / size = x / size := le_antisymm
          (Nat.div_le_div_right (by have := hxr.1; omega))
          (hxy.le.trans (Nat.div_le_div_right (by omega)))
        exact h.pred_begin_notMem hr (by omega)
          ((hl _ _ (by have := hxr.1; omega) hx hcell).mpr hxl)
      · by_contra hge
        rw [not_lt] at hge
        have hcell : x / size = r.end / size := le_antisymm
          (Nat.div_le_div_right hxr.2.le) ((Nat.div_le_div_right hge).trans hxy.ge)
        exact h.end_notMem_of_mem hr ((hl _ _ hx (by omega) hcell).mp hxl)
    rw [Set.mem_Ico, hb, he]
    exact ⟨max_le hyc.1 hyr.1, lt_min hyc.2 hyr.2⟩
  exact fun x y hx hy hxy => ⟨hstay x y hx hy hxy, hstay y x hy hx hxy.symm⟩

/-- Numbers that are two apart are few. -/
theorem length_le_of_two_apart {l : List Nat} (h : l.Pairwise fun a b => a + 2 ≤ b) {m n : Nat}
    (hbound : ∀ a ∈ l, m ≤ a ∧ a < n) : 2 * l.length ≤ n - m + 1 := by
  induction l generalizing m with
  | nil => exact Nat.zero_le _
  | cons a l ih =>
      obtain ⟨hfirst, hrest⟩ := List.pairwise_cons.mp h
      obtain ⟨hm, hn⟩ := hbound a List.mem_cons_self
      have hlen := @ih hrest (a + 2) fun b hb =>
        ⟨hfirst b hb, (hbound b (List.mem_cons_of_mem a hb)).2⟩
      rw [List.length_cons]
      omega

/-- **Fragmentation.**  A canonical list that is a union of `n` cells at most
has at most every other cell as an interval of its own. -/
theorem Canonical.length_le {size total n : Nat} {l : List (Interval Nat)} (h : Canonical l)
    (hbounded : ∀ r ∈ l, r.end ≤ total) (hcells : CellUnion size total (HalfOpen.covered l))
    (hn : ∀ x < total, x / size < n) : l.length ≤ (n + 1) / 2 := by
  -- no two intervals begin in the same cell or in neighbouring ones
  have hapart : (l.map fun r => r.begin / size).Pairwise fun a b => a + 2 ≤ b := by
    rw [List.pairwise_map]
    refine h.gapped.imp_of_mem fun {r s} hr hs hrs => ?_
    have hr' := h.nonempty r hr
    have hs' := h.nonempty s hs
    have hs'' := hbounded s hs
    have hlast : r.end - 1 ∈ HalfOpen.covered l := ⟨r, hr, by omega, by omega⟩
    have hfirst : s.begin ∈ HalfOpen.covered l := ⟨s, hs, le_refl _, hs'⟩
    have hbefore := h.pred_begin_notMem hs (by omega)
    have hafter := h.end_notMem_of_mem hr
    have hcell₁ : (r.end - 1) / size ≠ r.end / size := fun heq =>
      hafter ((hcells _ _ (by omega) (by omega) heq).mp hlast)
    have hcell₂ : (s.begin - 1) / size ≠ s.begin / size := fun heq =>
      hbefore ((hcells _ _ (by omega) (by omega) heq).mpr hfirst)
    have hle₁ : r.begin / size ≤ (r.end - 1) / size := Nat.div_le_div_right (by omega)
    have hle₂ : (r.end - 1) / size ≤ r.end / size := Nat.div_le_div_right (by omega)
    have hle₃ : r.end / size ≤ (s.begin - 1) / size := Nat.div_le_div_right (by omega)
    have hle₄ : (s.begin - 1) / size ≤ s.begin / size := Nat.div_le_div_right (by omega)
    omega
  have hlen := length_le_of_two_apart hapart (m := 0) (n := n) fun a ha => by
    obtain ⟨r, hr, rfl⟩ := List.mem_map.mp ha
    exact ⟨Nat.zero_le _, hn _ ((h.nonempty r hr).trans_le (hbounded r hr))⟩
  rw [List.length_map] at hlen
  omega

end HalfOpen
