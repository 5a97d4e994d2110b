import Mathlib.Data.List.Sort

/-!
Sorting that keeps the order of what compares equal: what is left out before the sort or after it makes no
difference.
-/

namespace StableSort

section Filter

variable {α : Type} (le : α → α → Prop) [DecidableRel le] (keep : α → Bool)

theorem filter_orderedInsert_out {item : α} (out : keep item = false) (items : List α) :
    (items.orderedInsert le item).filter keep = items.filter keep := by
  induction items with
  | nil => simp [out]
  | cons head rest ih =>
    rw [List.orderedInsert_cons]
    split
    · simp [out]
    · rw [List.filter_cons, List.filter_cons, ih]

variable [IsTrans α le]

theorem filter_orderedInsert_in {item : α} (in_ : keep item = true) {items : List α} (sorted : items.Pairwise le) :
    (items.orderedInsert le item).filter keep = (items.filter keep).orderedInsert le item := by
  induction items with
  | nil => simp [in_]
  | cons head rest ih =>
    obtain ⟨first, sorted⟩ := List.pairwise_cons.1 sorted
    rw [List.orderedInsert_cons]
    by_cases before : le item head
    · rw [if_pos before, List.filter_cons, if_pos in_]
      have all : ∀ other ∈ (head :: rest).filter keep, le item other := by
        intro other among
        rcases List.mem_cons.1 (List.mem_of_mem_filter among) with rfl | later
        · exact before
        · exact Trans.trans before (first other later)
      cases kept : (head :: rest).filter keep with
      | nil => rfl
      | cons next others =>
        rw [kept] at all
        rw [List.orderedInsert_cons, if_pos (all next List.mem_cons_self)]
    · rw [if_neg before, List.filter_cons, List.filter_cons]
      split
      · rw [List.orderedInsert_cons, if_neg before, ih sorted]
      · exact ih sorted

variable [Std.Total le]

theorem filter_insertionSort (items : List α) : (items.insertionSort le).filter keep = (items.filter keep).insertionSort le := by
  induction items with
  | nil => rfl
  | cons item rest ih =>
    rw [List.insertionSort_cons]
    cases kept : keep item with
    | false => rw [filter_orderedInsert_out le keep kept, List.filter_cons, kept, ih]; rfl
    | true =>
      rw [filter_orderedInsert_in le keep kept (List.pairwise_insertionSort le rest), List.filter_cons, kept, ih]
      rfl

end Filter

section Key

variable {α κ : Type} [LinearOrder κ] (key : α → κ)

/-- `sort_by_key`. -/
def sortBy (items : List α) : List α := items.insertionSort fun a b => key a ≤ key b

instance isTrans_key : IsTrans α fun a b => key a ≤ key b := ⟨fun _ _ _ first second => first.trans second⟩

instance total_key : Std.Total fun a b : α => key a ≤ key b := ⟨fun a b => le_total (key a) (key b)⟩

theorem sortBy_perm (items : List α) : (sortBy key items).Perm items := List.perm_insertionSort _ items

theorem sortBy_pairwise (items : List α) : (sortBy key items).Pairwise fun a b => key a ≤ key b :=
  List.pairwise_insertionSort _ items

theorem filter_sortBy (keep : α → Bool) (items : List α) :
    (sortBy key items).filter keep = sortBy key (items.filter keep) := filter_insertionSort _ keep items

end Key

end StableSort
