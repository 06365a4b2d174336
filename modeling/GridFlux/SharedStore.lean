/-
GridFlux/SharedStore.lean

Components that run side by side over one store.

A component has a state of its own and acts on the store, a function from keys to
values.  It is confined to a set of keys if it changes nothing else and does the
same whatever the rest of the store holds.  Components that are confined to
disjoint sets do not notice each other: what each of them does among the others,
it can do alone (`exists_alone`).
-/
import Mathlib.Data.Set.Function
import Mathlib.Data.Set.Lattice
import Mathlib.Order.CompletePartialOrder
import GridFlux.Transition

namespace Transition

variable {ι K V C E : Type*}

/-- What an action makes of a component's own state and of the store. -/
abbrev Component (K V C E : Type*) := E → C × (K → V) → C × (K → V) → Prop

/-- A component alone with its store. -/
def alone (initial : C × (K → V) → Prop) (step : Component K V C E) :
    System (C × (K → V)) E where
  initial := initial
  step := step

/-- Components side by side: one of them acts at a time. -/
def sideBySide [DecidableEq ι] (initial : ι → C × (K → V) → Prop)
    (step : ι → Component K V C E) : System ((ι → C) × (K → V)) (ι × E) where
  initial s := ∀ i, initial i (s.1 i, s.2)
  step e s s' := ∃ c, step e.1 e.2 (s.1 e.1, s.2) (c, s'.2) ∧ s'.1 = Function.update s.1 e.1 c

/-- The component touches no key but those in `S`, as long as its own state
satisfies the invariant. -/
structure Component.Confined (step : Component K V C E) (S : Set K) (I : C → Prop) : Prop where
  keeps : ∀ {e c f c' f'}, I c → step e (c, f) (c', f') → I c'
  frame : ∀ {e c f c' f'}, I c → step e (c, f) (c', f') → Set.EqOn f' f Sᶜ
  moves : ∀ {e c f c' f' g}, I c → step e (c, f) (c', f') → Set.EqOn g f S →
    ∃ g', step e (c, g) (c', g') ∧ Set.EqOn g' f' S

section SideBySide

variable [DecidableEq ι] {initial : ι → C × (K → V) → Prop} {step : ι → Component K V C E}
  {S : ι → Set K} {I : ι → C → Prop}

/-- The invariant of each component holds among the others. -/
theorem keeps_sideBySide (hinitial : ∀ i s, initial i s → I i s.1)
    (hconfined : ∀ i, (step i).Confined (S i) (I i)) {s : (ι → C) × (K → V)}
    (h : (sideBySide initial step).Reachable s) (i : ι) : I i (s.1 i) := by
  refine System.Reachable.invariant (I := fun s => ∀ i, I i (s.1 i)) ?_ ?_ h i
  · intro s hs i
    exact hinitial i _ (hs i)
  · rintro ⟨j, e⟩ ⟨runs, f⟩ ⟨runs', f'⟩ - hall ⟨c, hstep, hruns⟩ i
    change runs' = Function.update runs j c at hruns
    show I i (runs' i)
    rw [hruns]
    by_cases hi : i = j
    · subst hi
      rw [Function.update_self]
      exact (hconfined i).keeps (hall i) hstep
    · rw [Function.update_of_ne hi]
      exact hall i

/-- **No interference.**  What a component does among others that are confined to
other keys, it can do alone. -/
theorem exists_alone (hinitial : ∀ i s, initial i s → I i s.1)
    (hconfined : ∀ i, (step i).Confined (S i) (I i))
    (hapart : ∀ i j, i ≠ j → Disjoint (S i) (S j)) {s : (ι → C) × (K → V)}
    (h : (sideBySide initial step).Reachable s) (i : ι) :
    ∃ g, (alone (initial i) (step i)).Reachable (s.1 i, g) ∧ Set.EqOn g s.2 (S i) := by
  refine System.Reachable.invariant (I := fun s =>
    ∃ g, (alone (initial i) (step i)).Reachable (s.1 i, g) ∧ Set.EqOn g s.2 (S i)) ?_ ?_ h
  · intro s hs
    exact ⟨s.2, .initial (hs i), Set.eqOn_refl _ _⟩
  · rintro ⟨j, e⟩ ⟨runs, f⟩ ⟨runs', f'⟩ hreach ⟨g, hg, hsame⟩ ⟨c, hstep, hruns⟩
    change runs' = Function.update runs j c at hruns
    have hown := keeps_sideBySide hinitial hconfined hreach j
    subst hruns
    by_cases hi : i = j
    · subst hi
      obtain ⟨g', hmoved, hsame'⟩ := (hconfined i).moves hown hstep hsame
      refine ⟨g', ?_, hsame'⟩
      show (alone (initial i) (step i)).Reachable (Function.update runs i c i, g')
      rw [Function.update_self]
      exact hg.step (l := e) hmoved
    · -- the step of another component is not noticed
      refine ⟨g, ?_, fun k hk => ?_⟩
      · show (alone (initial i) (step i)).Reachable (Function.update runs j c i, g)
        rw [Function.update_of_ne hi]
        exact hg
      · have hother : k ∈ (S j)ᶜ := fun hkj => Set.disjoint_left.mp (hapart i j hi) hk hkj
        exact (hsame hk).trans ((hconfined j).frame hown hstep hother).symm

end SideBySide

end Transition
