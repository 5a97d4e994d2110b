import Mathlib.Data.List.Basic
import Mathlib.Data.List.Infix

/-!
Journals that are only appended to, each entry of which is justified by the entries before it.
-/

namespace Journal

variable {α : Type} {P Q : List α → α → Prop} {xs ys : List α} {x : α}

/-- Every entry is justified by what was there before it. -/
def Justified (P : List α → α → Prop) (xs : List α) : Prop :=
  ∀ before x, before ++ [x] <+: xs → P before x

theorem justified_nil : Justified P ([] : List α) := by
  intro before x prior
  have none := List.prefix_nil.mp prior
  simp at none

theorem prefix_singleton {before : List α} {y : α} (prior : before ++ [y] <+: [x]) :
    before = [] ∧ y = x := by
  obtain ⟨after, split⟩ := prior
  cases before with
  | nil =>
    simp only [List.nil_append, List.cons_append, List.cons.injEq] at split
    exact ⟨rfl, split.1⟩
  | cons first rest => simp at split

/-- An entry of the longer journal was there, or comes after the shorter one. -/
theorem prefix_append {before : List α} (prior : before ++ [x] <+: xs ++ ys) :
    before ++ [x] <+: xs ∨ ∃ more, before = xs ++ more ∧ more ++ [x] <+: ys := by
  obtain ⟨after, split⟩ := prior
  rw [List.append_assoc, List.append_eq_append_iff] at split
  rcases split with ⟨middle, rfl, rest⟩ | ⟨more, rfl, rest⟩
  · cases middle with
    | nil =>
      right
      exact ⟨[], by simp, after, by simpa using rest⟩
    | cons first middle =>
      simp only [List.cons_append, List.nil_append, List.cons.injEq] at rest
      left
      exact ⟨middle, by simp [rest.1]⟩
  · right
    refine ⟨more, rfl, after, ?_⟩
    rw [rest, List.append_assoc]

theorem Justified.append (justified : Justified P xs)
    (each : ∀ before x, before ++ [x] <+: ys → P (xs ++ before) x) : Justified P (xs ++ ys) := by
  intro before x prior
  rcases prefix_append prior with old | ⟨more, rfl, new⟩
  · exact justified before x old
  · exact each more x new

theorem Justified.mono (justified : Justified P xs)
    (weaker : ∀ before x, x ∈ xs → P before x → Q before x) : Justified Q xs := by
  intro before x prior
  have member : x ∈ xs := prior.subset (by simp)
  exact weaker before x member (justified before x prior)

theorem Justified.of_mem (justified : Justified P xs) (member : x ∈ xs) :
    ∃ before, before ++ [x] <+: xs ∧ P before x := by
  obtain ⟨before, after, rfl⟩ := List.append_of_mem member
  have prior : before ++ [x] <+: before ++ x :: after := ⟨after, by simp⟩
  exact ⟨before, prior, justified before x prior⟩

end Journal
