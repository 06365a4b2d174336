/-
GridFlux/Progress.lean

Labelled transition systems that come to an end.  It names nothing of the
transfer code.

`System.Inevitably P` holds of a state from which every way of taking steps
comes to a state with `P`; a step that changes nothing does not count.  The rule
is `Reachable.inevitably`: a measure that every other step lowers, and a step
that lowers it as long as there is no `P`.
-/
import GridFlux.Transition
import Mathlib.Logic.Relation
import Mathlib.Order.WellFounded

namespace Transition

variable {S L : Type*} {M : System S L}

namespace System

/-- There is a step, and whatever step is taken, it leads on to `P`. -/
inductive Inevitably (M : System S L) (P : S → Prop) : S → Prop
  | now {s : S} (h : P s) : Inevitably M P s
  | later {s : S} (hmoves : ∃ l s', M.step l s s' ∧ s' ≠ s)
      (h : ∀ l s', M.step l s s' → s' ≠ s → Inevitably M P s') : Inevitably M P s

namespace Inevitably

variable {P Q : S → Prop} {s : S}

theorem mono (h : M.Inevitably P s) (himp : ∀ s, P s → Q s) : M.Inevitably Q s := by
  induction h with
  | now h => exact .now (himp _ h)
  | later hmoves _ ih => exact .later hmoves ih

/-- What is inevitable can be reached. -/
theorem exists_path (h : M.Inevitably P s) :
    ∃ s', Relation.ReflTransGen (fun s s' => ∃ l, M.step l s s') s s' ∧ P s' := by
  induction h with
  | now h => exact ⟨_, .refl, h⟩
  | later hmoves _ ih =>
      obtain ⟨l, s', hstep, hne⟩ := hmoves
      obtain ⟨s'', hpath, hP⟩ := ih l s' hstep hne
      exact ⟨s'', .head ⟨l, hstep⟩ hpath, hP⟩

end Inevitably

/-- **The rule of progress.**  The steps lower a measure or change nothing, and
there is always one that lowers it, or `P` holds. -/
theorem Reachable.inevitably {α : Type*} {r : α → α → Prop} (hwf : WellFounded r)
    (measure : S → α) {P : S → Prop}
    (hlower : ∀ l s s', M.Reachable s → M.step l s s' → s' ≠ s → r (measure s') (measure s))
    (hmoves : ∀ s, M.Reachable s → ¬P s → ∃ l s', M.step l s s' ∧ s' ≠ s) {s : S}
    (h : M.Reachable s) : M.Inevitably P s := by
  induction hm : measure s using hwf.induction generalizing s with
  | _ m ih =>
      subst hm
      by_cases hP : P s
      · exact .now hP
      · apply Inevitably.later (hmoves s h hP)
        intro l s' hstep hne
        exact ih (measure s') (hlower l s s' h hstep hne) (h.step hstep) rfl

end System

end Transition
