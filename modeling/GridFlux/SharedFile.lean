/-
GridFlux/SharedFile.lean

A library for a file that several writers write into.  It names nothing of the
transfer code.

A `Segment` is a run of elements somebody wants at an offset.  A position of
the file is `Supplied` when what stands there comes from one of the segments,
and a set of positions is `Covered` when each of them is.  Overwriting the file
with a part of a segment keeps what is covered and covers the part as well
(`Covered.overwrite`): whoever writes, and in whatever order, a covered
position never holds anything but what some segment wants there.

When the segments that meet a range agree, a covered range holds exactly what
they say (`Covered.take_drop_eq`).
-/
import Mathlib.Data.List.Basic
import Mathlib.Data.Set.Basic
import Mathlib.Order.Interval.Set.Defs
import Mathlib.Algebra.Order.Group.Nat

namespace SharedFile

variable {α : Type*}

/-! ### Overwriting -/

/-- The content after `data` has been written at `offset`; a hole before the
offset is filled. -/
def overwrite (fill : α) (content : List α) (offset : Nat) (data : List α) : List α :=
  (content ++ List.replicate (offset - content.length) fill).take offset ++ data ++
    content.drop (offset + data.length)

section Overwrite

variable (fill : α) (content data : List α) (offset : Nat)

theorem length_hole :
    ((content ++ List.replicate (offset - content.length) fill).take offset).length = offset := by
  simp only [List.length_take, List.length_append, List.length_replicate]
  omega

theorem length_overwrite :
    (overwrite fill content offset data).length = max content.length (offset + data.length) := by
  rw [overwrite, List.length_append, List.length_append, length_hole, List.length_drop]
  omega

variable {offset}

/-- What has been written stands there. -/
theorem getElem?_overwrite_of_mem {x : Nat} (h : offset ≤ x) (h' : x < offset + data.length) :
    (overwrite fill content offset data)[x]? = data[x - offset]? := by
  have hlen := length_hole fill content offset
  rw [overwrite, List.getElem?_append_left (by rw [List.length_append, hlen]; exact h'),
    List.getElem?_append_right (by rw [hlen]; exact h), hlen]

/-- What lies outside the written range stays. -/
theorem getElem?_overwrite_of_notMem {x : Nat} (hx : x < content.length)
    (h : ¬(offset ≤ x ∧ x < offset + data.length)) :
    (overwrite fill content offset data)[x]? = content[x]? := by
  have hlen := length_hole fill content offset
  by_cases hlt : x < offset
  · rw [overwrite, List.append_assoc, List.getElem?_append_left (by rw [hlen]; exact hlt),
      List.getElem?_take_of_lt hlt, List.getElem?_append_left hx]
  · rw [overwrite, List.getElem?_append_right (by rw [List.length_append, hlen]; omega),
      List.getElem?_drop, List.length_append, hlen]
    congr 1
    omega

/-- Every position after a write. -/
theorem getElem?_overwrite (offset x : Nat) :
    (overwrite fill content offset data)[x]? =
      if offset ≤ x ∧ x < offset + data.length then data[x - offset]?
      else if x < content.length then content[x]?
      else if x < offset then some fill
      else none := by
  split
  · rename_i h
    exact getElem?_overwrite_of_mem fill content data h.1 h.2
  · rename_i h
    split
    · rename_i hx
      exact getElem?_overwrite_of_notMem fill content data hx h
    · rename_i hx
      have hlen := length_hole fill content offset
      split
      · -- the hole before the data
        rename_i hhole
        rw [overwrite, List.append_assoc, List.getElem?_append_left (by rw [hlen]; exact hhole),
          List.getElem?_take_of_lt hhole, List.getElem?_append_right (Nat.not_lt.mp hx),
          List.getElem?_replicate, if_pos (by omega)]
      · rw [List.getElem?_eq_none]
        rw [length_overwrite]
        omega

/-- A write that goes on where the last one ended is one longer write. -/
theorem overwrite_overwrite_append (offset : Nat) (more : List α) :
    overwrite fill (overwrite fill content offset data) (offset + data.length) more =
      overwrite fill content offset (data ++ more) := by
  apply List.ext_getElem?
  intro x
  rw [getElem?_overwrite, getElem?_overwrite, getElem?_overwrite, length_overwrite,
    List.length_append]
  by_cases hdata : offset ≤ x ∧ x < offset + data.length
  · rw [if_neg (by omega), if_pos (by omega), if_pos hdata, if_pos (by omega),
      List.getElem?_append_left (by omega)]
  · by_cases hmore : offset + data.length ≤ x ∧ x < offset + data.length + more.length
    · rw [if_pos hmore, if_pos (by omega), List.getElem?_append_right (by omega)]
      congr 1
      omega
    · have hall : ¬(offset ≤ x ∧ x < offset + (data.length + more.length)) := by omega
      rw [if_neg hmore, if_neg hdata, if_neg hall]
      by_cases hlong : x < content.length
      · rw [if_pos (show x < max content.length (offset + data.length) by omega), if_pos hlong]
      · rw [if_neg hlong]
        by_cases hhole : x < offset
        · rw [if_pos (show x < max content.length (offset + data.length) by omega), if_pos hhole]
        · rw [if_neg (show ¬x < max content.length (offset + data.length) by omega),
            if_neg (show ¬x < offset + data.length by omega), if_neg hhole]

end Overwrite

/-! ### Segments -/

/-- A run of elements wanted at an offset. -/
structure Segment (α : Type*) where
  offset : Nat
  data : List α
deriving DecidableEq

namespace Segment

def «end» (seg : Segment α) : Nat := seg.offset + seg.data.length

/-- What the segment wants at a position. -/
def wanted (seg : Segment α) (x : Nat) : Option α :=
  if seg.offset ≤ x then seg.data[x - seg.offset]? else none

/-- `data` at `offset` is a part of the segment. -/
structure Part (seg : Segment α) (offset : Nat) (data : List α) : Prop where
  le : seg.offset ≤ offset
  le_end : offset + data.length ≤ seg.end
  agrees : ∀ x, offset ≤ x → x < offset + data.length → data[x - offset]? = seg.wanted x

theorem Part.take {seg : Segment α} {offset : Nat} {data : List α} (h : seg.Part offset data)
    (n : Nat) : seg.Part offset (data.take n) := by
  have hle : (data.take n).length ≤ data.length := List.length_take_le' n data
  refine ⟨h.le, by have := h.le_end; omega, fun x hx hx' => ?_⟩
  rw [List.length_take] at hx'
  rw [List.getElem?_take_of_lt (by omega)]
  exact h.agrees x hx (by omega)

theorem Part.drop {seg : Segment α} {offset : Nat} {data : List α} (h : seg.Part offset data)
    (n : Nat) (hn : n ≤ data.length) : seg.Part (offset + n) (data.drop n) := by
  have hle := h.le_end
  have hlen : (data.drop n).length = data.length - n := List.length_drop
  refine ⟨by have := h.le; omega, by omega, fun x hx hx' => ?_⟩
  rw [List.getElem?_drop, ← h.agrees x (by omega) (by omega)]
  congr 1
  omega

/-- A longer segment with the same start has the same parts. -/
theorem Part.append {offset offset' : Nat} {data data' more : List α}
    (h : (Segment.mk offset data).Part offset' data') :
    (Segment.mk offset (data ++ more)).Part offset' data' := by
  have hle : offset ≤ offset' := h.le
  have hle_end : offset' + data'.length ≤ offset + data.length := h.le_end
  refine ⟨hle, ?_, fun x hx hx' => ?_⟩
  · show offset' + data'.length ≤ offset + (data ++ more).length
    rw [List.length_append]
    omega
  · rw [h.agrees x hx hx', wanted, wanted, if_pos (hle.trans hx), if_pos (hle.trans hx),
      List.getElem?_append_left (by show x - offset < data.length; omega)]

theorem part_self (seg : Segment α) : seg.Part seg.offset seg.data :=
  ⟨le_rfl, le_rfl, fun x hx _ => by rw [wanted, if_pos hx]⟩

/-- Nothing is a part of a segment, at its very end. -/
theorem part_nil (seg : Segment α) : seg.Part seg.end [] :=
  ⟨Nat.le_add_right _ _, le_rfl, fun _ hx hx' => absurd hx (Nat.not_le.mpr hx')⟩

/-- What has been appended is a part of the longer segment. -/
theorem part_append_right (offset : Nat) (data more : List α) :
    (Segment.mk offset (data ++ more)).Part (offset + data.length) more := by
  refine ⟨Nat.le_add_right _ _, ?_, fun x hx _ => ?_⟩
  · show offset + data.length + more.length ≤ offset + (data ++ more).length
    rw [List.length_append]
    omega
  · rw [wanted, if_pos (by show offset ≤ x; omega)]
    show _ = (data ++ more)[x - offset]?
    rw [List.getElem?_append_right (by omega)]
    congr 1
    omega

/-- A part of a part is a part. -/
theorem Part.trans {seg : Segment α} {offset offset' : Nat} {data data' : List α}
    (h : seg.Part offset data) (h' : (Segment.mk offset data).Part offset' data') :
    seg.Part offset' data' := by
  have hle : offset ≤ offset' := h'.le
  have hle_end : offset' + data'.length ≤ offset + data.length := h'.le_end
  refine ⟨h.le.trans hle, hle_end.trans h.le_end, fun x hx hx' => ?_⟩
  rw [h'.agrees x hx hx', wanted, if_pos (hle.trans hx)]
  exact h.agrees x (hle.trans hx) (by omega)

/-- What a part wants, the segment wants. -/
theorem Part.wanted_eq {seg : Segment α} {offset : Nat} {data : List α}
    (h : seg.Part offset data) {x : Nat} {a : α}
    (ha : (Segment.mk offset data).wanted x = some a) : seg.wanted x = some a := by
  rw [wanted] at ha
  split at ha
  · rename_i hle
    obtain ⟨hlt, -⟩ := List.getElem?_eq_some_iff.mp ha
    have hle' : offset ≤ x := hle
    have hlt' : x - offset < data.length := hlt
    rw [← h.agrees x hle (by omega)]
    exact ha
  · cases ha

/-- A segment wants something at its positions only. -/
theorem mem_of_wanted {seg : Segment α} {x : Nat} {a : α} (ha : seg.wanted x = some a) :
    x ∈ Set.Ico seg.offset seg.end := by
  rw [wanted] at ha
  split at ha
  · rename_i hle
    obtain ⟨hlt, -⟩ := List.getElem?_eq_some_iff.mp ha
    exact ⟨hle, by rw [«end»]; omega⟩
  · cases ha

end Segment

/-! ### Coverage -/

/-- What stands at the position is what some segment wants there. -/
def Supplied (segs : Set (Segment α)) (content : List α) (x : Nat) : Prop :=
  x < content.length ∧ ∃ seg ∈ segs, content[x]? = seg.wanted x

def Covered (segs : Set (Segment α)) (positions : Set Nat) (content : List α) : Prop :=
  ∀ x ∈ positions, Supplied segs content x

theorem covered_empty (segs : Set (Segment α)) (content : List α) : Covered segs ∅ content :=
  fun _ hx => hx.elim

/-- More segments cover at least as much: each old segment only has to be
wanted by a new one. -/
theorem Covered.mono {segs segs' : Set (Segment α)} {positions positions' : Set Nat}
    {content : List α} (h : Covered segs positions content)
    (hsegs : ∀ seg ∈ segs, ∀ x a, seg.wanted x = some a → ∃ seg' ∈ segs', seg'.wanted x = some a)
    (hpositions : positions' ⊆ positions) : Covered segs' positions' content := by
  intro x hx
  obtain ⟨hlt, seg, hseg, heq⟩ := h x (hpositions hx)
  obtain ⟨seg', hseg', hwanted⟩ := hsegs seg hseg x content[x]
    (by rw [← heq, List.getElem?_eq_getElem hlt])
  exact ⟨hlt, seg', hseg', by rw [hwanted, List.getElem?_eq_getElem hlt]⟩

/-- **Writing a part of a segment** keeps what is covered, and covers the part. -/
theorem Covered.overwrite {segs : Set (Segment α)} {positions : Set Nat} {content : List α}
    (h : Covered segs positions content) (fill : α) {seg : Segment α} (hseg : seg ∈ segs)
    {offset : Nat} {data : List α} (hpart : seg.Part offset data) :
    Covered segs (positions ∪ Set.Ico offset (offset + data.length))
      (overwrite fill content offset data) := by
  intro x hx
  have hlen := length_overwrite fill content data offset
  by_cases hmem : offset ≤ x ∧ x < offset + data.length
  · refine ⟨by omega, seg, hseg, ?_⟩
    rw [getElem?_overwrite_of_mem fill content data hmem.1 hmem.2]
    exact hpart.agrees x hmem.1 hmem.2
  · obtain ⟨hlt, seg', hseg', heq⟩ := h x (hx.resolve_right hmem)
    refine ⟨by omega, seg', hseg', ?_⟩
    rw [getElem?_overwrite_of_notMem fill content data hlt hmem, heq]

/-- A covered range holds what the segments that meet it agree on. -/
theorem Covered.take_drop_eq {segs : Set (Segment α)} {positions : Set Nat} {content : List α}
    (h : Covered segs positions content) {offset : Nat} {data : List α}
    (hrange : Set.Ico offset (offset + data.length) ⊆ positions)
    (hagree : ∀ seg ∈ segs, ∀ x ∈ Set.Ico offset (offset + data.length), ∀ a,
      seg.wanted x = some a → data[x - offset]? = some a) :
    (content.drop offset).take data.length = data := by
  have hat : ∀ i, i < data.length → content[offset + i]? = data[i]? := by
    intro i hi
    have hmem : offset + i ∈ Set.Ico offset (offset + data.length) :=
      ⟨Nat.le_add_right _ _, Nat.add_lt_add_left hi _⟩
    obtain ⟨hlt, seg, hseg, heq⟩ := h _ (hrange hmem)
    rw [List.getElem?_eq_getElem hlt] at heq
    have hdata := hagree seg hseg _ hmem _ heq.symm
    rw [Nat.add_sub_cancel_left] at hdata
    rw [hdata, List.getElem?_eq_getElem hlt]
  refine List.ext_getElem? fun i => ?_
  by_cases hi : i < data.length
  · rw [List.getElem?_take_of_lt hi, List.getElem?_drop, hat i hi]
  · rw [List.getElem?_eq_none (by rw [List.length_take]; omega),
      List.getElem?_eq_none (by omega)]

/-! ### Rewriting -/

/-- The content has been overwritten, any number of times, with parts of the
segments that end at `bound` or before. -/
inductive Rewritten (fill : α) (segs : Set (Segment α)) (bound : Nat) (content : List α) :
    List α → Prop
  | refl : Rewritten fill segs bound content content
  | overwrite {content' : List α} {seg : Segment α} {offset : Nat} {data : List α}
      (h : Rewritten fill segs bound content content') (hseg : seg ∈ segs)
      (hpart : seg.Part offset data) (hbound : offset + data.length ≤ bound) :
      Rewritten fill segs bound content (SharedFile.overwrite fill content' offset data)

namespace Rewritten

variable {fill : α} {segs : Set (Segment α)} {bound : Nat} {content content' content'' : List α}

theorem trans (h : Rewritten fill segs bound content content')
    (h' : Rewritten fill segs bound content' content'') :
    Rewritten fill segs bound content content'' := by
  induction h' with
  | refl => exact h
  | overwrite _ hseg hpart hbound ih => exact ih.overwrite hseg hpart hbound

/-- Each segment may be replaced by one it is a part of. -/
theorem mono {segs' : Set (Segment α)} (h : Rewritten fill segs bound content content')
    (hsegs : ∀ seg ∈ segs, ∃ seg' ∈ segs', seg'.Part seg.offset seg.data) :
    Rewritten fill segs' bound content content' := by
  induction h with
  | refl => exact .refl
  | overwrite _ hseg hpart hbound ih =>
      obtain ⟨seg', hseg', hpart'⟩ := hsegs _ hseg
      exact ih.overwrite hseg' (hpart'.trans hpart) hbound

theorem length_le (h : Rewritten fill segs bound content content') :
    content'.length ≤ max content.length bound := by
  induction h with
  | refl => exact Nat.le_max_left _ _
  | overwrite _ _ _ hbound ih =>
      rw [length_overwrite]
      omega

theorem le_length (h : Rewritten fill segs bound content content') :
    content.length ≤ content'.length := by
  induction h with
  | refl => exact le_rfl
  | overwrite _ _ _ _ ih =>
      rw [length_overwrite]
      omega

/-- **Rewriting keeps what is covered.** -/
theorem covered (h : Rewritten fill segs bound content content') {segs' : Set (Segment α)}
    {positions : Set Nat} (hsegs : segs ⊆ segs') (hcovered : Covered segs' positions content) :
    Covered segs' positions content' := by
  induction h with
  | refl => exact hcovered
  | overwrite _ hseg hpart _ ih =>
      intro x hx
      exact ih.overwrite fill (hsegs hseg) hpart x (Or.inl hx)

/-- A covered range grows by what has been written behind it. -/
theorem covered_extend {seg : Segment α} (h : Rewritten fill {seg} bound content content')
    {segs' : Set (Segment α)} (hseg : seg ∈ segs') {first written mid : Nat}
    (hcovered : Covered segs' (Set.Ico first written) content)
    (hwrote : Covered {seg} (Set.Ico written mid) content') :
    Covered segs' (Set.Ico first mid) content' := by
  have hsegs : {seg} ⊆ segs' := by
    rintro _ rfl
    exact hseg
  intro x hx
  by_cases hlt : x < written
  · exact h.covered hsegs hcovered x ⟨hx.1, hlt⟩
  · obtain ⟨hin, seg', hseg', heq⟩ := hwrote x ⟨Nat.not_lt.mp hlt, hx.2⟩
    exact ⟨hin, seg', hsegs hseg', heq⟩

/-- Outside the segment nothing changes; a hole before it is filled. -/
theorem getElem?_of_notMem {seg : Segment α} (h : Rewritten fill {seg} bound content content')
    {x : Nat} (hx : ¬(seg.offset ≤ x ∧ x < seg.end)) (hlt : x < content'.length) :
    content'[x]? = if x < content.length then content[x]? else some fill := by
  induction h with
  | refl => rw [if_pos hlt]
  | @overwrite content' seg' offset data h hseg hpart _ ih =>
      cases hseg
      have hle := hpart.le
      have hle_end := hpart.le_end
      have hmono := h.le_length
      rw [length_overwrite] at hlt
      rw [getElem?_overwrite, if_neg (by omega)]
      by_cases hold : x < content'.length
      · rw [if_pos hold, ih hold]
      · rw [if_neg hold, if_pos (by omega), if_neg (by omega)]

/-- **Writing a segment in parts, in any order, is writing it at once**, when
every position of it has been written. -/
theorem eq_overwrite {seg : Segment α} (h : Rewritten fill {seg} bound content content')
    (hcovered : Covered {seg} (Set.Ico seg.offset seg.end) content') (hdata : seg.data ≠ [])
    (hbound : bound ≤ seg.end) : content' = SharedFile.overwrite fill content seg.offset seg.data := by
  have hpos : 0 < seg.data.length := List.length_pos_iff.mpr hdata
  have hend : seg.end = seg.offset + seg.data.length := rfl
  -- the last position is covered, so the content reaches the segment's end
  obtain ⟨hlast, -⟩ := hcovered (seg.end - 1) ⟨by omega, by omega⟩
  have hlong := h.le_length
  have hshort := h.length_le
  apply List.ext_getElem?
  intro x
  rw [getElem?_overwrite]
  by_cases hmem : seg.offset ≤ x ∧ x < seg.end
  · obtain ⟨-, seg', hseg', heq⟩ := hcovered x hmem
    cases hseg'
    rw [if_pos (by omega), heq, Segment.wanted, if_pos hmem.1]
  · rw [if_neg (by omega)]
    by_cases hlt : x < content'.length
    · rw [h.getElem?_of_notMem hmem hlt]
      by_cases hold : x < content.length
      · rw [if_pos hold, if_pos hold]
      · rw [if_neg hold, if_neg hold, if_pos (by omega)]
    · rw [List.getElem?_eq_none (by omega), if_neg (by omega), if_neg (by omega)]

end Rewritten

end SharedFile
