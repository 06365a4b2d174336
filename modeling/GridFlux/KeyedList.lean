/-
GridFlux/KeyedList.lean

Lists of keys with values, read as a map.  It names nothing of the transfer
code.

Where the keys are distinct `List.lookup` finds what is in the list and nothing
else (`lookup_eq_some_iff_mem`).  `emplace` adds an entry whose key is new and
keeps the keys distinct.
-/
import Mathlib.Data.List.Nodup

namespace KeyedList

variable {κ ν : Type*} [BEq κ] [LawfulBEq κ] {entries : List (κ × ν)} {k : κ} {v : ν}

theorem mem_of_lookup (h : entries.lookup k = some v) : (k, v) ∈ entries := by
  obtain ⟨before, after, rfl, -⟩ := List.lookup_eq_some_iff.mp h
  exact List.mem_append_right before List.mem_cons_self

theorem lookup_of_mem (hnodup : (entries.map Prod.fst).Nodup) (hmem : (k, v) ∈ entries) :
    entries.lookup k = some v := by
  obtain ⟨before, after, rfl⟩ := List.append_of_mem hmem
  rw [List.map_append, List.map_cons, List.nodup_append] at hnodup
  obtain ⟨-, -, hdisjoint⟩ := hnodup
  refine List.lookup_eq_some_iff.mpr ⟨before, after, rfl, fun entry hentry => ?_⟩
  exact bne_iff_ne.mpr
    (hdisjoint _ (List.mem_map_of_mem hentry) _ List.mem_cons_self).symm

theorem lookup_eq_some_iff_mem (hnodup : (entries.map Prod.fst).Nodup) :
    entries.lookup k = some v ↔ (k, v) ∈ entries := by
  constructor
  · exact mem_of_lookup
  · exact lookup_of_mem hnodup

theorem lookup_eq_none_iff_notMem : entries.lookup k = none ↔ k ∉ entries.map Prod.fst := by
  rw [List.lookup_eq_none_iff]
  constructor
  · intro h hmem
    obtain ⟨entry, hentry, rfl⟩ := List.mem_map.mp hmem
    exact bne_iff_ne.mp (h entry hentry) rfl
  · intro h entry hentry
    apply bne_iff_ne.mpr
    rintro rfl
    exact h (List.mem_map_of_mem hentry)

/-- The entry is added unless its key is there. -/
def emplace (entries : List (κ × ν)) (entry : κ × ν) : List (κ × ν) :=
  if (entries.lookup entry.1).isSome then entries else entries ++ [entry]

theorem emplace_of_notMem {entry : κ × ν} (h : entry.1 ∉ entries.map Prod.fst) :
    emplace entries entry = entries ++ [entry] := by
  rw [emplace, lookup_eq_none_iff_notMem.mpr h]
  rfl

/-- Entries with distinct keys are all added. -/
theorem foldl_emplace {new : List (κ × ν)} (h : ((entries ++ new).map Prod.fst).Nodup) :
    new.foldl emplace entries = entries ++ new := by
  induction new generalizing entries with
  | nil => exact (List.append_nil entries).symm
  | cons entry new ih =>
      have hsplit : entries ++ entry :: new = (entries ++ [entry]) ++ new := by
        rw [List.append_assoc]
        rfl
      have hnew : entry.1 ∉ entries.map Prod.fst := by
        rw [List.map_append, List.nodup_append] at h
        intro hmem
        exact h.2.2 _ hmem _ List.mem_cons_self rfl
      rw [List.foldl_cons, emplace_of_notMem hnew]
      rw [hsplit] at h ⊢
      exact ih h

end KeyedList
