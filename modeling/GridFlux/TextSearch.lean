/-
GridFlux/TextSearch.lean

Searching a text for another, from the left and from the right.  It names
nothing of the transfer code.

Each search is characterised by the positions at which the needle occurs: `find`
returns the first (`find_eq_some`, `find_eq_none`), `rfind` the last that is not
beyond a limit (`rfind_eq_some`, `rfind_eq_none`).  `words` cuts a text at its
blanks; a blank separates the words on its two sides (`words_append`).
-/
import Mathlib.Data.List.Infix
import Mathlib.Data.List.TakeWhile

namespace TextCodec

variable {α : Type*}

/-- The needle occurs at this position. -/
def OccursAt (needle text : List α) (position : Nat) : Prop := needle <+: text.drop position

/-! ### Occurrences around a junction -/

/-- An occurrence in the second part of a text. -/
theorem occursAt_append_right {needle front text : List α} (k : Nat) :
    OccursAt needle (front ++ text) (front.length + k) ↔ OccursAt needle text k := by
  rw [OccursAt, OccursAt, ← List.drop_drop, List.drop_left]

theorem OccursAt.length_le {needle text : List α} {k : Nat} (h : OccursAt needle text k)
    (hne : needle ≠ []) : k + needle.length ≤ text.length := by
  have hlength := List.IsPrefix.length_le h
  have hpos := List.length_pos_of_ne_nil hne
  rw [List.length_drop] at hlength
  omega

/-- The first of two characters that occur side by side. -/
theorem OccursAt.getElem? {needle text : List α} {k i : Nat} (h : OccursAt needle text k)
    (hi : i < needle.length) : text[k + i]? = needle[i]? := by
  obtain ⟨tail, htail⟩ := h
  rw [← List.getElem?_drop, ← htail, List.getElem?_append_left hi]

/-- An occurrence that ends within the first part of a text. -/
theorem occursAt_append_left {needle front text : List α} {k : Nat}
    (h : k + needle.length ≤ front.length) :
    OccursAt needle (front ++ text) k ↔ OccursAt needle front k := by
  have hk : k ≤ front.length := Nat.le_of_add_right_le h
  rw [OccursAt, OccursAt, List.drop_append_of_le_length hk]
  constructor
  · intro hoccurs
    apply List.prefix_of_prefix_length_le hoccurs (List.prefix_append _ _)
    rw [List.length_drop]
    omega
  · intro hoccurs
    exact hoccurs.trans (List.prefix_append _ _)

/-- A needle that holds its first character once does not reach over another
such character. -/
theorem occursAt_before {s : α} {rest front text : List α} {k : Nat} (hs : s ∉ rest)
    (hk : k < front.length) :
    OccursAt (s :: rest) (front ++ s :: text) k ↔ OccursAt (s :: rest) front k := by
  rcases Nat.lt_or_ge front.length (k + (s :: rest).length) with hover | hwithin
  · rw [List.length_cons] at hover
    constructor
    · intro h
      have hi : front.length - k < (s :: rest).length := by
        rw [List.length_cons]
        omega
      have hat := h.getElem? hi
      rw [Nat.add_sub_cancel' (Nat.le_of_lt hk), List.getElem?_append_right (Nat.le_refl _),
        Nat.sub_self, List.getElem?_cons_zero] at hat
      obtain ⟨i, hi⟩ := Nat.exists_eq_add_of_lt hk
      rw [show front.length - k = i + 1 from by omega, List.getElem?_cons_succ] at hat
      exact absurd (List.mem_of_getElem? hat.symm) hs
    · intro h
      have hle := h.length_le (List.cons_ne_nil s rest)
      rw [List.length_cons] at hle
      omega
  · exact occursAt_append_left hwithin

theorem infix_iff_occursAt {needle text : List α} :
    needle <:+: text ↔ ∃ k ≤ text.length, OccursAt needle text k := by
  constructor
  · rintro ⟨front, back, rfl⟩
    refine ⟨front.length, ?_, ?_⟩
    · rw [List.append_assoc, List.length_append]
      exact Nat.le_add_right _ _
    · rw [OccursAt, List.append_assoc, List.drop_left]
      exact List.prefix_append _ _
  · rintro ⟨k, -, h⟩
    exact h.isInfix.trans (List.drop_suffix k text).isInfix

/-! ### Words -/

/-- One character more at the beginning of the first word. -/
def lengthenFirst (c : α) : List (List α) → List (List α)
  | [] => [[c]]
  | w :: ws => (c :: w) :: ws

/-- The runs of characters between blanks. -/
def words (blank : α → Bool) : List α → List (List α)
  | [] => []
  | c :: rest =>
      if blank c then words blank rest
      else if rest.head?.all blank then [c] :: words blank rest
      else lengthenFirst c (words blank rest)

section Words

variable {blank : α → Bool}

theorem words_blank {c : α} (h : blank c = true) (rest : List α) :
    words blank (c :: rest) = words blank rest := by
  rw [words, if_pos h]

theorem words_ne_nil {c : α} (h : ¬blank c = true) (rest : List α) :
    words blank (c :: rest) ≠ [] := by
  rw [words, if_neg h]
  split
  · exact List.cons_ne_nil _ _
  · cases words blank rest with
    | nil => exact List.cons_ne_nil _ _
    | cons w ws => exact List.cons_ne_nil _ _

theorem words_append (front : List α) {s : α} (hs : blank s = true) (rest : List α) :
    words blank (front ++ s :: rest) = words blank front ++ words blank rest := by
  induction front with
  | nil => exact words_blank hs rest
  | cons c front ih =>
      by_cases hc : blank c = true
      · rw [List.cons_append, words_blank hc, ih, words_blank hc]
      · rw [List.cons_append, words, if_neg hc, words, if_neg hc, ih]
        cases front with
        | nil =>
            have hhead : (([] : List α) ++ s :: rest).head?.all blank = true := hs
            have hnil : ([] : List α).head?.all blank = true := rfl
            rw [if_pos hhead, if_pos hnil]
            rfl
        | cons d front =>
            have hhead : (d :: front ++ s :: rest).head?.all blank =
                (d :: front).head?.all blank := rfl
            rw [hhead]
            by_cases hd : (d :: front).head?.all blank = true
            · rw [if_pos hd, if_pos hd]
              rfl
            · have hd' : ¬blank d = true := hd
              rw [if_neg hd, if_neg hd]
              obtain ⟨w, ws, hwords⟩ := List.exists_cons_of_ne_nil (words_ne_nil hd' front)
              rw [hwords]
              rfl

theorem words_of_no_blank {word : List α} (hne : word ≠ []) (h : ∀ c ∈ word, ¬blank c = true) :
    words blank word = [word] := by
  induction word with
  | nil => exact absurd rfl hne
  | cons c word ih =>
      rw [words, if_neg (h c List.mem_cons_self)]
      cases word with
      | nil => rfl
      | cons d word =>
          have hd : ¬(d :: word).head?.all blank = true :=
            h d (List.mem_cons_of_mem c List.mem_cons_self)
          rw [if_neg hd, ih (List.cons_ne_nil d word) fun b hb => h b (List.mem_cons_of_mem c hb)]
          rfl

end Words

/-! ### The searches -/

variable [DecidableEq α]

instance (needle text : List α) (position : Nat) : Decidable (OccursAt needle text position) :=
  inferInstanceAs (Decidable (needle <+: text.drop position))

/-- The first position. -/
def find (needle : List α) : List α → Option Nat
  | [] => if needle = [] then some 0 else none
  | c :: rest => if needle <+: c :: rest then some 0 else (find needle rest).map (· + 1)

/-- The first position from a given one on. -/
def findFrom (needle text : List α) (position : Nat) : Option Nat :=
  if position ≤ text.length then (find needle (text.drop position)).map (· + position) else none

/-- The last position up to a given one. -/
def rfind (needle text : List α) : Nat → Option Nat
  | 0 => if OccursAt needle text 0 then some 0 else none
  | position + 1 =>
      if OccursAt needle text (position + 1) then some (position + 1) else rfind needle text position

theorem find_eq_some {needle text : List α} {k : Nat} :
    find needle text = some k ↔ OccursAt needle text k ∧ k ≤ text.length ∧
      ∀ j < k, ¬OccursAt needle text j := by
  induction text generalizing k with
  | nil =>
      rw [find]
      by_cases hempty : needle = []
      · rw [if_pos hempty, hempty]
        constructor
        · intro h
          obtain rfl := Option.some.inj h
          exact ⟨List.nil_prefix, Nat.le_refl _, fun j hj => absurd hj (Nat.not_lt_zero j)⟩
        · rintro ⟨-, hle, -⟩
          rw [Nat.le_zero.mp hle]
      · rw [if_neg hempty]
        refine ⟨fun h => (by cases h), ?_⟩
        rintro ⟨hoccurs, -, -⟩
        rw [OccursAt, List.drop_nil] at hoccurs
        exact absurd (List.prefix_nil.mp hoccurs) hempty
  | cons c rest ih =>
      rw [find]
      by_cases hhere : needle <+: c :: rest
      · rw [if_pos hhere]
        constructor
        · intro h
          obtain rfl := Option.some.inj h
          exact ⟨hhere, Nat.zero_le _, fun j hj => absurd hj (Nat.not_lt_zero j)⟩
        · rintro ⟨-, -, hfirst⟩
          rcases Nat.eq_zero_or_pos k with rfl | hpos
          · rfl
          · exact absurd hhere (hfirst 0 hpos)
      · rw [if_neg hhere, Option.map_eq_some_iff]
        constructor
        · rintro ⟨j, hj, rfl⟩
          obtain ⟨hoccurs, hle, hfirst⟩ := ih.mp hj
          refine ⟨hoccurs, Nat.succ_le_succ hle, ?_⟩
          intro i hi
          cases i with
          | zero => exact hhere
          | succ i => exact hfirst i (Nat.lt_of_succ_lt_succ hi)
        · rintro ⟨hoccurs, hle, hfirst⟩
          cases k with
          | zero => exact absurd hoccurs hhere
          | succ k =>
              exact ⟨k, ih.mpr ⟨hoccurs, Nat.le_of_succ_le_succ hle,
                fun j hj => hfirst (j + 1) (Nat.succ_lt_succ hj)⟩, rfl⟩

theorem find_eq_none {needle text : List α} :
    find needle text = none ↔ ∀ k ≤ text.length, ¬OccursAt needle text k := by
  induction text with
  | nil =>
      rw [find]
      by_cases hempty : needle = []
      · rw [if_pos hempty, hempty]
        exact ⟨fun h => (by cases h), fun h => absurd List.nil_prefix (h 0 (Nat.le_refl _))⟩
      · rw [if_neg hempty]
        refine ⟨fun _ k _ hoccurs => hempty ?_, fun _ => rfl⟩
        rw [OccursAt, List.drop_nil] at hoccurs
        exact List.prefix_nil.mp hoccurs
  | cons c rest ih =>
      rw [find]
      by_cases hhere : needle <+: c :: rest
      · rw [if_pos hhere]
        exact ⟨fun h => (by cases h), fun h => absurd hhere (h 0 (Nat.zero_le _))⟩
      · rw [if_neg hhere, Option.map_eq_none_iff, ih]
        constructor
        · intro h k hk
          cases k with
          | zero => exact hhere
          | succ k => exact h k (Nat.le_of_succ_le_succ hk)
        · intro h k hk
          exact h (k + 1) (Nat.succ_le_succ hk)

theorem rfind_eq_some {needle text : List α} {limit k : Nat} :
    rfind needle text limit = some k ↔ OccursAt needle text k ∧ k ≤ limit ∧
      ∀ j, k < j → j ≤ limit → ¬OccursAt needle text j := by
  induction limit with
  | zero =>
      rw [rfind]
      split
      · rename_i hhere
        constructor
        · intro h
          obtain rfl := Option.some.inj h
          exact ⟨hhere, Nat.le_refl _, fun j hj hle => absurd hj (Nat.not_lt.mpr hle)⟩
        · rintro ⟨-, hle, -⟩
          rw [Nat.le_zero.mp hle]
      · rename_i hhere
        refine ⟨fun h => (by cases h), ?_⟩
        rintro ⟨hoccurs, hle, -⟩
        rw [Nat.le_zero.mp hle] at hoccurs
        exact absurd hoccurs hhere
  | succ limit ih =>
      rw [rfind]
      split
      · rename_i hhere
        constructor
        · intro h
          obtain rfl := Option.some.inj h
          exact ⟨hhere, Nat.le_refl _, fun j hj hle => absurd hj (Nat.not_lt.mpr hle)⟩
        · rintro ⟨-, hle, hlast⟩
          rcases Nat.lt_or_ge k (limit + 1) with hlt | hge
          · exact absurd hhere (hlast (limit + 1) hlt (Nat.le_refl _))
          · rw [Nat.le_antisymm hle hge]
      · rename_i hhere
        rw [ih]
        constructor
        · rintro ⟨hoccurs, hle, hlast⟩
          refine ⟨hoccurs, Nat.le_succ_of_le hle, ?_⟩
          intro j hj hlimit
          rcases Nat.lt_or_eq_of_le hlimit with hlt | rfl
          · exact hlast j hj (Nat.le_of_lt_succ hlt)
          · exact hhere
        · rintro ⟨hoccurs, hle, hlast⟩
          rcases Nat.lt_or_eq_of_le hle with hlt | rfl
          · exact ⟨hoccurs, Nat.le_of_lt_succ hlt, fun j hj hlimit =>
              hlast j hj (Nat.le_succ_of_le hlimit)⟩
          · exact absurd hoccurs hhere

theorem rfind_eq_none {needle text : List α} {limit : Nat} :
    rfind needle text limit = none ↔ ∀ k ≤ limit, ¬OccursAt needle text k := by
  constructor
  · intro h k hk hoccurs
    induction limit with
    | zero =>
        rw [Nat.le_zero.mp hk] at hoccurs
        rw [rfind, if_pos hoccurs] at h
        cases h
    | succ limit ih =>
        rw [rfind] at h
        split at h
        · cases h
        · rename_i hhere
          rcases Nat.lt_or_eq_of_le hk with hlt | rfl
          · exact ih h (Nat.le_of_lt_succ hlt)
          · exact hhere hoccurs
  · intro h
    cases hfound : rfind needle text limit with
    | none => rfl
    | some k =>
        obtain ⟨hoccurs, hle, -⟩ := rfind_eq_some.mp hfound
        exact absurd hoccurs (h k hle)

end TextCodec
