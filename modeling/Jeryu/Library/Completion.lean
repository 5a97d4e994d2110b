import Mathlib.Logic.Relation
import Mathlib.Order.WellFounded

/-!
Systems that come to an end however they are scheduled, and end well.
-/

namespace Completion

open Relation

variable {σ : Type} {step : σ → σ → Prop} {good : σ → Prop} {s : σ}

/-- Nothing can happen any more. -/
def Stuck (step : σ → σ → Prop) (s : σ) : Prop := ∀ s', ¬step s s'

/-- No run goes on for ever, and where one cannot go on the end is good. -/
structure Completes (step : σ → σ → Prop) (good : σ → Prop) (s : σ) : Prop where
  ends : Acc (fun s' s => step s s') s
  good : ∀ s', ReflTransGen step s s' → Stuck step s' → good s'

/-- A run that ends somewhere. -/
theorem exists_stuck (ends : Acc (fun s' s => step s s') s) : ∃ s', ReflTransGen step s s' ∧ Stuck step s' := by
  induction ends with
  | intro s _ ih =>
    by_cases stuck : Stuck step s
    · exact ⟨s, .refl, stuck⟩
    · unfold Stuck at stuck
      push Not at stuck
      obtain ⟨s', next⟩ := stuck
      obtain ⟨last, run, stuck⟩ := ih s' next
      exact ⟨last, .head next run, stuck⟩

variable {inv : σ → Prop} {measure : σ → Nat}

theorem invariant_along (preserved : ∀ s s', inv s → step s s' → inv s') (start : inv s) {s' : σ}
    (run : ReflTransGen step s s') : inv s' := by
  induction run with
  | refl => exact start
  | tail _ next ih => exact preserved _ _ ih next

theorem ends_of_measure (preserved : ∀ s s', inv s → step s s' → inv s')
    (less : ∀ s s', inv s → step s s' → measure s' < measure s) (start : inv s) :
    Acc (fun s' s => step s s') s := by
  induction size : measure s using Nat.strong_induction_on generalizing s with
  | _ size_ ih =>
    constructor
    intro s' next
    exact ih (measure s') (size ▸ less s s' start next) (preserved s s' start next) rfl

theorem completes_of_invariant (preserved : ∀ s s', inv s → step s s' → inv s')
    (less : ∀ s s', inv s → step s s' → measure s' < measure s)
    (well : ∀ s, inv s → Stuck step s → good s) (start : inv s) : Completes step good s where
  ends := ends_of_measure preserved less start
  good s' run stuck := well s' (invariant_along preserved start run) stuck

theorem not_completes_of_invariant (preserved : ∀ s s', inv s → step s s' → inv s')
    (bad : ∀ s, inv s → ¬good s) (start : inv s) : ¬Completes step good s := by
  intro completes
  obtain ⟨last, run, stuck⟩ := exists_stuck completes.ends
  exact bad last (invariant_along preserved start run) (completes.good last run stuck)

end Completion
