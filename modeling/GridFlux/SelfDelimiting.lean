/-
GridFlux/SelfDelimiting.lean

Encodings whose end can be told from their beginning.  It names nothing of the
transfer code.

A `SelfDelimiting` encoding can be split off the front of any longer string.  A
text up to its terminator is one (`selfDelimiting_terminated`), so is a text whose
length is known (`selfDelimiting_ofLength`), and so is an encoding followed by one
that depends on what the first encodes (`SelfDelimiting.followedBy`).  The
concatenation of the encodings of a list determines the list
(`SelfDelimiting.flatMap_injective`).
-/
import Mathlib.Data.List.Basic
import Mathlib.Logic.Function.Basic

namespace TextCodec

variable {α β γ : Type*}

/-- The encoding can be split off the front of any longer string. -/
def SelfDelimiting (encode : α → List β) : Prop :=
  ∀ ⦃a b s t⦄, encode a ++ s = encode b ++ t → a = b ∧ s = t

namespace SelfDelimiting

/-- Renaming what is encoded. -/
theorem comp {encode : α → List β} (h : SelfDelimiting encode) {f : γ → α}
    (hf : Function.Injective f) : SelfDelimiting (encode ∘ f) := by
  intro c d s t heq
  obtain ⟨hcd, hst⟩ := h heq
  exact ⟨hf hcd, hst⟩

/-- One encoding after the other; the second may depend on the first. -/
theorem followedBy {δ : α → Type*} {first : α → List β} {second : ∀ a, δ a → List β}
    (hfirst : SelfDelimiting first) (hsecond : ∀ a, SelfDelimiting (second a)) :
    SelfDelimiting fun x : Sigma δ => first x.1 ++ second x.1 x.2 := by
  rintro ⟨a, x⟩ ⟨b, y⟩ s t heq
  rw [List.append_assoc, List.append_assoc] at heq
  obtain ⟨rfl, hrest⟩ := hfirst heq
  obtain ⟨rfl, hst⟩ := hsecond a hrest
  exact ⟨rfl, hst⟩

end SelfDelimiting

/-! ### Where an encoding ends -/

/-- A text up to its terminator. -/
theorem selfDelimiting_terminated (stop : β) :
    SelfDelimiting fun text : {text : List β // stop ∉ text} => text.val ++ [stop] := by
  rintro ⟨text, htext⟩ ⟨text', htext'⟩ s t heq
  rw [List.append_assoc, List.append_assoc] at heq
  induction text generalizing text' with
  | nil =>
      cases text' with
      | nil => exact ⟨rfl, (List.cons.inj heq).2⟩
      | cons c text' =>
          have hc : stop = c := (List.cons.inj heq).1
          exact absurd (hc ▸ List.mem_cons_self) htext'
  | cons c text ih =>
      cases text' with
      | nil =>
          have hc : c = stop := (List.cons.inj heq).1
          exact absurd (hc ▸ List.mem_cons_self) htext
      | cons d text' =>
          obtain ⟨rfl, hrest⟩ := List.cons.inj heq
          obtain ⟨hsame, hst⟩ := ih (fun h => htext (List.mem_cons_of_mem _ h)) text'
            (fun h => htext' (List.mem_cons_of_mem _ h)) hrest
          exact ⟨Subtype.ext (congrArg (c :: ·) (Subtype.mk.inj hsame)), hst⟩

/-- A text whose length is known. -/
theorem selfDelimiting_ofLength (n : Nat) (rest : List β) :
    SelfDelimiting fun text : {text : List β // text.length = n} => text.val ++ rest := by
  rintro ⟨text, htext⟩ ⟨text', htext'⟩ s t heq
  rw [List.append_assoc, List.append_assoc] at heq
  obtain ⟨hsame, hrest⟩ := List.append_inj heq (htext.trans htext'.symm)
  exact ⟨Subtype.ext hsame, List.append_cancel_left hrest⟩

/-! ### Lists of encodings -/

section Lists

variable {encode : α → List β}

/-- The encodings of two lists, one after the other, are the same for the same
list only. -/
theorem SelfDelimiting.flatMap_injective (h : SelfDelimiting encode) (hne : ∀ a, encode a ≠ []) :
    Function.Injective fun l : List α => l.flatMap encode := by
  intro l
  induction l with
  | nil =>
      rintro (- | ⟨b, l'⟩) heq
      · rfl
      · dsimp only at heq
        rw [List.flatMap_nil, List.flatMap_cons] at heq
        exact absurd (List.append_eq_nil_iff.mp heq.symm).1 (hne b)
  | cons a l ih =>
      rintro (- | ⟨b, l'⟩) heq
      · dsimp only at heq
        rw [List.flatMap_nil, List.flatMap_cons] at heq
        exact absurd (List.append_eq_nil_iff.mp heq).1 (hne a)
      · dsimp only at heq
        rw [List.flatMap_cons, List.flatMap_cons] at heq
        obtain ⟨rfl, hrest⟩ := h heq
        rw [ih hrest]

end Lists

end TextCodec
