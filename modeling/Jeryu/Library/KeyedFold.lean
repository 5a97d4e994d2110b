import Mathlib.Data.List.Induction
import Jeryu.Library.KeyedMap

/-!
A log of events reduced to one current value per key. Each event acts on the value of its
own key only, so the value of a key is decided by the last event that put it and by what
the later events of that key did.
-/

namespace KeyedFold

open KeyedMap

variable {ε κ ν : Type}

inductive Action (ν : Type) : Type where
  | put (value : ν)
  | clear
  | keep
  | clearIf (matching : ν → Bool)

namespace Action

def apply : Action ν → Option ν → Option ν
  | put value, _ => some value
  | clear, _ => none
  | keep, current => current
  | clearIf matching, current => current.filter fun value => !matching value

def Leaves (action : Action ν) (value : ν) : Prop := action.apply (some value) = some value

@[simp] theorem leaves_put {value value' : ν} : (put value' : Action ν).Leaves value ↔ value' = value := by
  simp [Leaves, apply]

@[simp] theorem not_leaves_clear {value : ν} : ¬(clear : Action ν).Leaves value := by
  simp [Leaves, apply]

@[simp] theorem leaves_keep {value : ν} : (keep : Action ν).Leaves value := rfl

@[simp] theorem leaves_clearIf {matching : ν → Bool} {value : ν} :
    (clearIf matching : Action ν).Leaves value ↔ matching value = false := by
  simp [Leaves, apply, Option.filter_eq_some_iff]

theorem apply_eq_some {action : Action ν} {current : Option ν} {value : ν}
    (result : action.apply current = some value) :
    action = .put value ∨ (current = some value ∧ action.Leaves value) := by
  cases action with
  | put value' => exact .inl (congrArg put (Option.some.inj result))
  | clear => cases result
  | keep => exact .inr ⟨result, rfl⟩
  | clearIf matching =>
    obtain ⟨was, kept⟩ := Option.filter_eq_some_iff.mp result
    exact .inr ⟨was, by simpa using kept⟩

end Action

section Standing

variable [DecidableEq κ] (key : ε → κ) (act : ε → Action ν)

/-- The value of one key, from the events of that key alone. -/
def standing (events : List ε) (k : κ) : Option ν :=
  events.foldl (fun current event => if key event = k then (act event).apply current else current)
    none

theorem standing_concat (events : List ε) (event : ε) (k : κ) :
    standing key act (events ++ [event]) k =
      if key event = k then (act event).apply (standing key act events k)
      else standing key act events k := by
  simp [standing]

/-- A value stands exactly when some event put it and every later event of its key left it
    alone. -/
theorem standing_eq_some_iff {events : List ε} {k : κ} {value : ν} :
    standing key act events k = some value ↔
      ∃ before event after, events = before ++ event :: after ∧ key event = k ∧
        act event = .put value ∧ ∀ later ∈ after, key later = k → (act later).Leaves value := by
  induction events using List.reverseRecOn with
  | nil => simp [standing]
  | append_singleton events last ih =>
    rw [standing_concat]
    constructor
    · intro stands
      split at stands
      · next same =>
        rcases Action.apply_eq_some stands with put | ⟨current, leaves⟩
        · exact ⟨events, last, [], by simp, same, put, by simp⟩
        · obtain ⟨before, event, after, rfl, own, put, left⟩ := ih.mp current
          refine ⟨before, event, after ++ [last], by simp, own, put, fun later member => ?_⟩
          rcases List.mem_append.mp member with member | member
          · exact left later member
          · cases List.mem_singleton.mp member
            exact fun _ => leaves
      · next other =>
        obtain ⟨before, event, after, rfl, own, put, left⟩ := ih.mp stands
        refine ⟨before, event, after ++ [last], by simp, own, put, fun later member => ?_⟩
        rcases List.mem_append.mp member with member | member
        · exact left later member
        · cases List.mem_singleton.mp member
          exact fun same => absurd same other
    · rintro ⟨before, event, after, split, own, put, left⟩
      rcases List.eq_nil_or_concat after with rfl | ⟨after, final, rfl⟩
      · obtain ⟨rfl, same⟩ := List.append_inj' split rfl
        cases List.singleton_inj.mp same
        simp [own, put, Action.apply]
      · rw [List.concat_eq_append] at left
        rw [List.concat_eq_append, ← List.cons_append, ← List.append_assoc] at split
        obtain ⟨rfl, same⟩ := List.append_inj' split rfl
        cases List.singleton_inj.mp same
        have current := ih.mpr ⟨before, event, after, rfl, own, put, fun later member =>
          left later (List.mem_append_left _ member)⟩
        rw [current]
        split
        · next same => exact left last (by simp) same
        · rfl

/-- Where every event puts, nothing stands for a key without events. -/
theorem standing_put_eq_none {events : List ε} {k : κ} :
    standing key Action.put events k = none ↔ ∀ event ∈ events, key event ≠ k := by
  induction events using List.reverseRecOn with
  | nil => simp [standing]
  | append_singleton events last ih =>
    rw [standing_concat]
    constructor
    · intro nothing event member
      split at nothing
      · cases nothing
      · next other =>
        rcases List.mem_append.mp member with member | member
        · exact ih.mp nothing event member
        · cases List.mem_singleton.mp member
          exact other
    · intro others
      rw [if_neg (others last (by simp))]
      exact ih.mpr fun event member => others event (List.mem_append_left _ member)

/-- Two selections of one log, the wider with more events: what holds of no value and of every
    event relates what stands in the one to what stands in the other. -/
theorem standing_filter {R : Option ν → Option ν → Prop} {narrow wide : ε → Bool} {events : List ε}
    {k : κ} (within : ∀ event ∈ events, narrow event = true → wide event = true)
    (nothing : R none none)
    (shared : ∀ event ∈ events, key event = k → narrow event = true → ∀ v w, R v w →
      R ((act event).apply v) ((act event).apply w))
    (added : ∀ event ∈ events, key event = k → narrow event = false → wide event = true →
      ∀ v w, R v w → R v ((act event).apply w)) :
    R (standing key act (events.filter narrow) k) (standing key act (events.filter wide) k) := by
  induction events using List.reverseRecOn with
  | nil => exact nothing
  | append_singleton events last ih =>
    have earlier := ih (fun event member => within event (List.mem_append_left _ member))
      (fun event member => shared event (List.mem_append_left _ member))
      fun event member => added event (List.mem_append_left _ member)
    have member : last ∈ events ++ [last] := by simp
    by_cases inside : narrow last = true
    · have outside := within last member inside
      have taken : (events ++ [last]).filter narrow = events.filter narrow ++ [last] := by
        simp [inside]
      have taken' : (events ++ [last]).filter wide = events.filter wide ++ [last] := by
        simp [outside]
      rw [taken, taken', standing_concat, standing_concat]
      split
      · next own => exact shared last member own inside _ _ earlier
      · exact earlier
    · have left : (events ++ [last]).filter narrow = events.filter narrow := by simp [inside]
      rw [left]
      by_cases more : wide last = true
      · have taken : (events ++ [last]).filter wide = events.filter wide ++ [last] := by
          simp [more]
        rw [taken, standing_concat]
        split
        · next own => exact added last member own (by simpa using inside) more _ _ earlier
        · exact earlier
      · have left' : (events ++ [last]).filter wide = events.filter wide := by simp [more]
        rw [left']
        exact earlier

end Standing

section Reduce

variable [DecidableEq κ] {key : ε → κ} {act : ε → Action ν}

def applyAt (m : HashMap κ ν) (k : κ) : Action ν → HashMap κ ν
  | .put value => m.insert k value
  | .clear => m.erase k
  | .keep => m
  | .clearIf matching =>
    match m.lookup k with
    | some value => if matching value then m.erase k else m
    | none => m

theorem lookup_applyAt (m : HashMap κ ν) (k other : κ) (action : Action ν) :
    (applyAt m k action).lookup other =
      if k = other then action.apply (m.lookup other) else m.lookup other := by
  by_cases same : k = other
  · subst same
    rw [if_pos rfl]
    cases action with
    | put value => simp [applyAt, Action.apply]
    | clear => simp [applyAt, Action.apply, HashMap.lookup_erase_if]
    | keep => rfl
    | clearIf matching =>
      simp only [applyAt, Action.apply]
      cases current : m.lookup k with
      | none => simp [current]
      | some value =>
        cases clears : matching value <;> simp [current, clears, HashMap.lookup_erase_if, Option.filter]
  · have different : other ≠ k := fun equal => same equal.symm
    rw [if_neg same]
    cases action with
    | put value => simp [applyAt, HashMap.lookup_insert_if, different]
    | clear => simp [applyAt, HashMap.lookup_erase_if, different]
    | keep => rfl
    | clearIf matching =>
      simp only [applyAt]
      split
      · split
        · simp [HashMap.lookup_erase_if, different]
        · rfl
      · rfl

/-- The reduced log, looked up at a key, is what stands for that key. -/
theorem lookup_foldl_applyAt (events : List ε) (k : κ) :
    (events.foldl (fun m event => applyAt m (key event) (act event)) ∅).lookup k =
      standing key act events k := by
  induction events using List.reverseRecOn with
  | nil => simp [standing]
  | append_singleton events last ih =>
    rw [standing_concat, ← ih, List.foldl_append]
    exact lookup_applyAt _ _ _ _

end Reduce

end KeyedFold
