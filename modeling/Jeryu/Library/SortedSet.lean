import Mathlib.Data.List.Sort
import Mathlib.Data.List.Dedup

/-!
Sets that are kept as ordered lists without repeats. Such a list is determined by its members.
-/

namespace SortedSet

variable {α : Type} [LinearOrder α] {items items' : List α} {item : α}

/-- The members of a set, in order. -/
def ordered (items : List α) : List α := (items.insertionSort (· ≤ ·)).dedup

@[simp] theorem mem_ordered : item ∈ ordered items ↔ item ∈ items := by
  unfold ordered
  rw [List.mem_dedup, List.mem_insertionSort]

theorem ordered_pairwise (items : List α) : (ordered items).Pairwise (· < ·) := by
  have sorted : (items.insertionSort (· ≤ ·)).dedup.Pairwise (· ≤ ·) :=
    (List.pairwise_insertionSort (· ≤ ·) items).sublist (List.dedup_sublist _)
  have apart : (items.insertionSort (· ≤ ·)).dedup.Pairwise (· ≠ ·) := List.nodup_dedup _
  exact (sorted.and apart).imp fun both => lt_of_le_of_ne both.1 both.2

theorem nodup_of_pairwise (strict : items.Pairwise (· < ·)) : items.Nodup := strict.imp ne_of_lt

/-- Two lists in order that have the same members are the same. -/
theorem eq_of_pairwise (strict : items.Pairwise (· < ·)) (strict' : items'.Pairwise (· < ·))
    (same : ∀ item, item ∈ items ↔ item ∈ items') : items = items' := by
  have perm : items.Perm items' :=
    (List.perm_ext_iff_of_nodup (nodup_of_pairwise strict) (nodup_of_pairwise strict')).mpr same
  exact perm.eq_of_pairwise (fun a b _ _ before after => absurd after before.asymm) strict strict'

end SortedSet
