import Mathlib.Data.List.Induction
import Mathlib.Order.Lattice

/-!
The latest of a list of stamped rows, the last one of several with the same stamp.
-/

namespace Latest

variable {α τ : Type} [LinearOrder τ] (stamp : α → τ)

def pick (current : Option α) (row : α) : Option α :=
  match current with
  | none => some row
  | some seen => if stamp row ≥ stamp seen then some row else current

def latest (rows : List α) : Option α := rows.foldl (pick stamp) none

/-- Between the rows `before` and `after`, `next` comes later than `row`. -/
def Later (before after : List α) (row next : α) : Prop :=
  (next ∈ before ∧ stamp row < stamp next) ∨ (next ∈ after ∧ stamp row ≤ stamp next)

variable {stamp} {rows before after : List α} {row last : α} {p : α → Bool}

@[simp] theorem latest_nil : latest stamp ([] : List α) = none := rfl

theorem latest_concat (rows : List α) (row : α) :
    latest stamp (rows ++ [row]) = pick stamp (latest stamp rows) row := by
  simp [latest]

theorem foldl_pick_some (seen : α) : ∃ last, rows.foldl (pick stamp) (some seen) = some last := by
  induction rows generalizing seen with
  | nil => exact ⟨seen, rfl⟩
  | cons row rest ih =>
    rw [List.foldl_cons]
    unfold pick
    dsimp only
    split
    · exact ih row
    · exact ih seen

theorem latest_eq_none : latest stamp rows = none ↔ rows = [] := by
  constructor
  · intro none
    cases rows with
    | nil => rfl
    | cons row rest =>
      obtain ⟨last, found⟩ := @foldl_pick_some α τ _ stamp rest row
      cases none.symm.trans found
  · rintro rfl
    rfl

/-- Nothing comes later than the latest row. -/
theorem latest_split (found : latest stamp rows = some last) :
    ∃ before after, rows = before ++ last :: after ∧ ∀ next, ¬Later stamp before after last next := by
  induction rows using List.reverseRecOn generalizing last with
  | nil => cases found
  | append_singleton rows row ih =>
    rw [latest_concat] at found
    cases earlier : latest stamp rows with
    | none =>
      rw [earlier] at found
      obtain rfl := latest_eq_none.mp earlier
      cases found
      refine ⟨[], [], rfl, fun next later => ?_⟩
      rcases later with ⟨none, -⟩ | ⟨none, -⟩ <;> cases none
    | some seen =>
      rw [earlier] at found
      obtain ⟨before, after, rfl, last'⟩ := ih earlier
      unfold pick at found
      dsimp only at found
      split at found
      · next newer =>
        cases found
        refine ⟨before ++ seen :: after, [], by simp, fun next later => ?_⟩
        rcases later with ⟨member, after_row⟩ | ⟨none, -⟩
        · have beyond : stamp seen < stamp next := lt_of_le_of_lt newer after_row
          rcases List.mem_append.mp member with member | member
          · exact last' next (.inl ⟨member, beyond⟩)
          · rcases List.mem_cons.mp member with rfl | member
            · exact lt_irrefl _ beyond
            · exact last' next (.inr ⟨member, le_of_lt beyond⟩)
        · cases none
      · next older =>
        cases found
        refine ⟨before, after ++ [row], by simp, fun next later => ?_⟩
        rcases later with found | ⟨member, beyond⟩
        · exact last' next (.inl found)
        · rcases List.mem_append.mp member with member | member
          · exact last' next (.inr ⟨member, beyond⟩)
          · cases List.mem_singleton.mp member
            exact older beyond

theorem latest_mem (found : latest stamp rows = some last) : last ∈ rows := by
  obtain ⟨before, after, rfl, -⟩ := latest_split found
  simp

/-- A row of the list is the latest one, or the latest one is later. -/
theorem latest_of_split (found : latest stamp (before ++ row :: after) = some last) :
    last = row ∨ Later stamp before after row last := by
  obtain ⟨front, back, split, none⟩ := latest_split found
  rcases List.append_eq_append_iff.mp split with ⟨rest, rfl, same⟩ | ⟨rest, rfl, same⟩
  · cases rest with
    | nil =>
      cases same
      exact .inl rfl
    | cons head rest =>
      cases same
      refine .inr (.inr ⟨by simp, not_lt.mp fun beyond => none row (.inl ⟨by simp, beyond⟩)⟩)
  · cases rest with
    | nil =>
      cases same
      exact .inl rfl
    | cons head rest =>
      cases same
      refine .inr (.inl ⟨by simp, not_le.mp fun beyond => none row (.inr ⟨by simp, beyond⟩)⟩)

/-- A row no earlier than the others is the latest once it is appended. -/
theorem latest_append (newest : ∀ other ∈ rows, stamp other ≤ stamp row) :
    latest stamp (rows ++ [row]) = some row := by
  rw [latest_concat]
  cases earlier : latest stamp rows with
  | none => rfl
  | some seen => exact if_pos (newest seen (latest_mem earlier))

/-- The latest of the rows that pass, among all of them. -/
theorem latest_filter_split (found : latest stamp (rows.filter p) = some last) :
    p last = true ∧ ∃ before after, rows = before ++ last :: after ∧
      ∀ next, p next = true → ¬Later stamp before after last next := by
  refine ⟨(List.mem_filter.mp (latest_mem found)).2, ?_⟩
  obtain ⟨front, back, split, none⟩ := latest_split found
  obtain ⟨left, right, rfl, rfl, rest⟩ := List.filter_eq_append_iff.mp split
  obtain ⟨skipped, later, rfl, silent, here, rfl⟩ := List.filter_eq_cons_iff.mp rest
  refine ⟨left ++ skipped, later, by simp, fun next passes beyond => none next ?_⟩
  rcases beyond with ⟨member, beyond⟩ | ⟨member, beyond⟩
  · rcases List.mem_append.mp member with member | member
    · exact .inl ⟨List.mem_filter.mpr ⟨member, passes⟩, beyond⟩
    · exact absurd passes (silent next member)
  · exact .inr ⟨List.mem_filter.mpr ⟨member, passes⟩, beyond⟩

theorem latest_filter_of_split
    (found : latest stamp ((before ++ row :: after).filter p) = some last) (here : p row = true) :
    last = row ∨ Later stamp before after row last := by
  rw [List.filter_append, List.filter_cons_of_pos here] at found
  rcases latest_of_split found with same | ⟨member, beyond⟩ | ⟨member, beyond⟩
  · exact .inl same
  · exact .inr (.inl ⟨(List.mem_filter.mp member).1, beyond⟩)
  · exact .inr (.inr ⟨(List.mem_filter.mp member).1, beyond⟩)

theorem latest_greatest (found : latest stamp rows = some last) :
    ∀ row ∈ rows, stamp row ≤ stamp last := by
  obtain ⟨before, after, rfl, none⟩ := latest_split found
  intro row member
  rcases List.mem_append.mp member with first | rest
  · exact not_lt.mp fun later => none row (.inl ⟨first, later⟩)
  · rcases List.mem_cons.mp rest with rfl | beyond
    · exact le_refl _
    · exact le_of_lt (not_le.mp fun later => none row (.inr ⟨beyond, later⟩))

/-- Where no two rows have the same stamp, the latest does not depend on the order. -/
theorem latest_perm {rows' : List α} (same : rows.Perm rows')
    (apart : ∀ row ∈ rows, ∀ other ∈ rows, stamp row = stamp other → row = other) :
    latest stamp rows = latest stamp rows' := by
  cases found : latest stamp rows with
  | none =>
    have empty := latest_eq_none.mp found
    subst empty
    rw [List.nil_perm.mp same, latest_nil]
  | some last =>
    cases found' : latest stamp rows' with
    | none =>
      have empty := latest_eq_none.mp found'
      subst empty
      rw [List.perm_nil.mp same] at found
      cases found
    | some last' =>
      have member := latest_mem found
      have member' := same.mem_iff.mpr (latest_mem found')
      have le := latest_greatest found' last (same.mem_iff.mp member)
      have ge := latest_greatest found last' member'
      exact congrArg some (apart last member last' member' (le_antisymm le ge))

/-- The greatest of a list under a comparison, the last one of several that are. -/
def maxBy (cmp : α → α → Ordering) : List α → Option α
  | [] => none
  | row :: rest => some (rest.foldl (fun best next => if cmp best next = .gt then best else next) row)

theorem maxBy_eq_latest {cmp : α → α → Ordering} (agrees : ∀ a b, cmp a b = .gt ↔ stamp b < stamp a) :
    maxBy cmp rows = latest stamp rows := by
  cases rows with
  | nil => rfl
  | cons row rest =>
    show some _ = List.foldl (pick stamp) (some row) rest
    induction rest generalizing row with
    | nil => rfl
    | cons next rest ih =>
      rw [List.foldl_cons, List.foldl_cons, ih]
      unfold pick
      dsimp only
      by_cases greater : stamp next < stamp row
      · rw [if_pos ((agrees row next).mpr greater), if_neg (not_le.mpr greater)]
      · rw [if_neg (mt (agrees row next).mp greater), if_pos (not_lt.mp greater)]

end Latest
