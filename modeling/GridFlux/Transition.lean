/-
GridFlux/Transition.lean

Labelled transition systems, for reasoning about whole runs.  A run starts in
an initial state and takes steps; each step carries a label, which says what
was called and with what environment.

The one induction over runs is `Reachable.invariant`: what holds initially and
is kept by every step holds of every reachable state.  `System.restrict` keeps
the steps that meet a condition on the label and the state before the step.
-/
import Mathlib.Data.Set.Basic

namespace Transition

/-- Initial states, and the steps with their labels. -/
structure System (S L : Type*) where
  initial : S → Prop
  step : L → S → S → Prop

variable {S L : Type*}

namespace System

/-- The states that runs lead to. -/
inductive Reachable (M : System S L) : S → Prop
  | initial {s : S} (h : M.initial s) : Reachable M s
  | step {l : L} {s s' : S} (hs : Reachable M s) (h : M.step l s s') : Reachable M s'

/-- **The invariant rule.**  A step may use that its first state is reachable. -/
theorem Reachable.invariant {M : System S L} {I : S → Prop}
    (hinitial : ∀ s, M.initial s → I s)
    (hstep : ∀ l s s', M.Reachable s → I s → M.step l s s' → I s') {s : S}
    (h : M.Reachable s) : I s := by
  induction h with
  | initial h => exact hinitial _ h
  | step hs h ih => exact hstep _ _ _ hs ih h

theorem Reachable.exists_initial {M : System S L} {s : S} (h : M.Reachable s) :
    ∃ s₀, M.initial s₀ := by
  induction h with
  | initial h => exact ⟨_, h⟩
  | step _ _ ih => exact ih

/-- The system that takes only the steps `allowed` admits. -/
def restrict (M : System S L) (allowed : L → S → Prop) : System S L where
  initial := M.initial
  step l s s' := allowed l s ∧ M.step l s s'

theorem Reachable.of_restrict {M : System S L} {allowed : L → S → Prop} {s : S}
    (h : (M.restrict allowed).Reachable s) : M.Reachable s := by
  induction h with
  | initial h => exact .initial h
  | step _ h ih => exact .step ih h.2

/-- Fewer admitted steps reach fewer states. -/
theorem Reachable.mono {M : System S L} {allowed allowed' : L → S → Prop}
    (himp : ∀ l s, allowed l s → allowed' l s) {s : S}
    (h : (M.restrict allowed).Reachable s) : (M.restrict allowed').Reachable s := by
  induction h with
  | initial h => exact .initial h
  | step _ h ih => exact .step ih ⟨himp _ _ h.1, h.2⟩

end System

end Transition
