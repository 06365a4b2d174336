/-
GridFlux/Pieces.lean

A library for a range that is worked off in pieces.  It names nothing of the
transfer code.

A row of places each holds one `Piece`, a run of positions, possibly empty.
Pieces are handed out from `next` on, shrink from the front while they are
worked on, and finish in any order.  `Apart` says that no two places share a
position; `unfinished` is what the pieces hold together with what has not been
handed out.

The two operations are `List.set` at one place: handing out the next run to an
empty place (`Apart.assign`, `unfinished_assign`) and working off the front of
a piece (`Apart.advance`, `unfinished_advance`).
-/
import Mathlib.Data.Set.Lattice
import Mathlib.Order.Interval.Set.LinearOrder
import Mathlib.Algebra.Order.Group.Nat

namespace Pieces

/-- `size` positions from `start` on. -/
structure Piece where
  start : Nat
  size : Nat

def Piece.positions (p : Piece) : Set Nat := Set.Ico p.start (p.start + p.size)

theorem Piece.mem_positions {p : Piece} {x : Nat} :
    x ∈ p.positions ↔ p.start ≤ x ∧ x < p.start + p.size := Iff.rfl

/-- No two places hold a common position. -/
def Apart (pieces : List Piece) : Prop :=
  ∀ (i j : Nat) (p q : Piece), i ≠ j → pieces[i]? = some p → pieces[j]? = some q →
    ∀ x ∈ p.positions, x ∉ q.positions

/-- The positions some place holds. -/
def held (pieces : List Piece) : Set Nat :=
  {x | ∃ (i : Nat) (p : Piece), pieces[i]? = some p ∧ x ∈ p.positions}

/-- What the places hold, and what has not been handed out. -/
def unfinished (pieces : List Piece) (next length : Nat) : Set Nat :=
  held pieces ∪ Set.Ico next length

variable {pieces : List Piece} {i : Nat} {p q : Piece}

theorem held_replicate (n : Nat) (start : Nat) :
    held (List.replicate n ⟨start, 0⟩) = ∅ := by
  ext x
  constructor
  · rintro ⟨i, p, hp, hx⟩
    rw [List.getElem?_replicate] at hp
    split at hp
    · cases hp
      rw [Piece.positions, Nat.add_zero, Set.Ico_self] at hx
      exact hx.elim
    · cases hp
  · exact fun h => h.elim

theorem apart_replicate (n : Nat) (start : Nat) : Apart (List.replicate n ⟨start, 0⟩) := by
  intro i j p q _ hp _
  rw [List.getElem?_replicate] at hp
  split at hp
  · cases hp
    intro x hx
    rw [Piece.positions, Nat.add_zero, Set.Ico_self] at hx
    exact hx.elim
  · cases hp

/-- What one place holds may be replaced by what no other place holds. -/
theorem Apart.set (h : Apart pieces)
    (hnew : ∀ (j : Nat) (p : Piece), j ≠ i → pieces[j]? = some p → ∀ x ∈ q.positions, x ∉ p.positions) :
    Apart (pieces.set i q) := by
  intro j k a b hjk ha hb
  rw [List.getElem?_set] at ha hb
  split at ha
  · rename_i hj
    subst hj
    rw [if_neg hjk] at hb
    split at ha
    · cases ha
      exact hnew k b (Ne.symm hjk) hb
    · cases ha
  · rename_i hj
    split at hb
    · rename_i hk
      subst hk
      split at hb
      · cases hb
        exact fun x hx hx' => hnew j a hjk ha x hx' hx
      · cases hb
    · exact h j k a b hjk ha hb

/-- What stands elsewhere is still held. -/
theorem mem_held_set {x : Nat} (hp : pieces[i]? = some p) :
    x ∈ held (pieces.set i q) ↔
      x ∈ q.positions ∨ ∃ (j : Nat) (r : Piece), j ≠ i ∧ pieces[j]? = some r ∧ x ∈ r.positions := by
  obtain ⟨hlt, -⟩ := List.getElem?_eq_some_iff.mp hp
  constructor
  · rintro ⟨j, r, hr, hx⟩
    rw [List.getElem?_set] at hr
    split at hr
    · cases hr
      exact Or.inl hx
    · rename_i hij
      exact Or.inr ⟨j, r, Ne.symm hij, hr, hx⟩
  · rintro (hx | ⟨j, r, hj, hr, hx⟩)
    · exact ⟨i, q, by rw [List.getElem?_set_self hlt], hx⟩
    · exact ⟨j, r, by rw [List.getElem?_set_ne (Ne.symm hj)]; exact hr, hx⟩

theorem mem_held_iff {x : Nat} (hp : pieces[i]? = some p) :
    x ∈ held pieces ↔
      x ∈ p.positions ∨ ∃ (j : Nat) (r : Piece), j ≠ i ∧ pieces[j]? = some r ∧ x ∈ r.positions := by
  have hself : pieces.set i p = pieces := by
    obtain ⟨hlt, rfl⟩ := List.getElem?_eq_some_iff.mp hp
    exact List.set_getElem_self hlt
  rw [← mem_held_set (q := p) hp, hself]

/-! ### Handing out -/

section Assign

variable {next length size : Nat}

/-- An empty place takes a run from `next` on, if everything handed out before
lies below it. -/
theorem Apart.assign (h : Apart pieces)
    (hbelow : ∀ (j : Nat) (p : Piece), pieces[j]? = some p → p.start + p.size ≤ next) :
    Apart (pieces.set i ⟨next, size⟩) := by
  apply h.set
  intro j p _ hp x hx hx'
  have hle := hbelow j p hp
  rw [Piece.mem_positions] at hx hx'
  have hx₁ : next ≤ x := hx.1
  omega

theorem held_assign (hp : pieces[i]? = some p) (hempty : p.size = 0) :
    held (pieces.set i ⟨next, size⟩) = held pieces ∪ Set.Ico next (next + size) := by
  ext x
  rw [mem_held_set hp, Set.mem_union, mem_held_iff hp]
  have hnone : x ∉ p.positions := fun hx => by
    rw [Piece.mem_positions] at hx
    omega
  constructor
  · rintro (hx | hx)
    · exact Or.inr hx
    · exact Or.inl (Or.inr hx)
  · rintro ((hx | hx) | hx)
    · exact absurd hx hnone
    · exact Or.inr hx
    · exact Or.inl hx

/-- Handing out changes nothing of what is unfinished. -/
theorem unfinished_assign (hp : pieces[i]? = some p) (hempty : p.size = 0)
    (hle : next + size ≤ length) :
    unfinished (pieces.set i ⟨next, size⟩) (next + size) length =
      unfinished pieces next length := by
  rw [unfinished, held_assign hp hempty, Set.union_assoc,
    Set.Ico_union_Ico_eq_Ico (Nat.le_add_right _ _) hle, unfinished]

/-- Nor does it while `next` has not been moved yet. -/
theorem unfinished_assign_early (hp : pieces[i]? = some p) (hempty : p.size = 0)
    (hle : next + size ≤ length) :
    unfinished (pieces.set i ⟨next, size⟩) next length = unfinished pieces next length := by
  rw [unfinished, held_assign hp hempty, Set.union_assoc,
    Set.union_eq_self_of_subset_left (Set.Ico_subset_Ico_right hle), unfinished]

end Assign

/-! ### Working off -/

section Advance

variable {next length n : Nat}

/-- A place that holds less keeps apart from the others. -/
theorem Apart.shrink (h : Apart pieces) (hp : pieces[i]? = some p)
    (hsub : q.positions ⊆ p.positions) : Apart (pieces.set i q) := by
  apply h.set
  intro j r hj hr
  exact fun x hx => h i j p r (Ne.symm hj) hp hr x (hsub hx)

theorem advance_subset (hn : n ≤ p.size) :
    (Piece.mk (p.start + n) (p.size - n)).positions ⊆ p.positions := by
  intro x hx
  rw [Piece.mem_positions] at hx ⊢
  have hx₁ : p.start + n ≤ x := hx.1
  have hx₂ : x < p.start + n + (p.size - n) := hx.2
  omega

/-- Working off `n` positions of a piece. -/
theorem Apart.advance (h : Apart pieces) (hp : pieces[i]? = some p) (hn : n ≤ p.size) :
    Apart (pieces.set i ⟨p.start + n, p.size - n⟩) :=
  h.shrink hp (advance_subset hn)

/-- Exactly the positions worked off are no longer unfinished. -/
theorem unfinished_advance (h : Apart pieces) (hp : pieces[i]? = some p) (hn : n ≤ p.size)
    (hbelow : p.start + p.size ≤ next) :
    unfinished (pieces.set i ⟨p.start + n, p.size - n⟩) next length =
      unfinished pieces next length \ Set.Ico p.start (p.start + n) := by
  ext x
  rw [unfinished, unfinished, Set.mem_union, mem_held_set hp, Set.mem_sdiff, Set.mem_union,
    mem_held_iff hp, Piece.mem_positions, Piece.mem_positions]
  show (p.start + n ≤ x ∧ x < p.start + n + (p.size - n) ∨ _) ∨ _ ↔ _
  constructor
  · rintro ((hx | ⟨j, r, hj, hr, hx⟩) | hx)
    · refine ⟨Or.inl (Or.inl (by omega)), fun hmem => ?_⟩
      have := hmem.2
      omega
    · refine ⟨Or.inl (Or.inr ⟨j, r, hj, hr, hx⟩), fun hmem => ?_⟩
      -- another place holds nothing of this piece
      exact h i j p r (Ne.symm hj) hp hr x
        (Piece.mem_positions.mpr ⟨hmem.1, by have := hmem.2; omega⟩) hx
    · refine ⟨Or.inr hx, fun hmem => ?_⟩
      have := hmem.2
      have := hx.1
      omega
  · rintro ⟨(hx | hx) | hx, hnot⟩
    · refine Or.inl (Or.inl ?_)
      by_contra hlt
      exact hnot ⟨hx.1, by omega⟩
    · exact Or.inl (Or.inr hx)
    · exact Or.inr hx

/-- An empty piece may be replaced by any other empty piece. -/
theorem unfinished_clear (hp : pieces[i]? = some p) (hempty : p.size = 0) (hq : q.size = 0) :
    unfinished (pieces.set i q) next length = unfinished pieces next length := by
  have hset : held (pieces.set i q) = held pieces := by
    ext x
    rw [mem_held_set hp, mem_held_iff hp]
    apply or_congr_left
    rw [Piece.mem_positions, Piece.mem_positions]
    omega
  rw [unfinished, hset, unfinished]

end Advance

end Pieces
