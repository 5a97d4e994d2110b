import Mathlib.Data.List.Nodup

/-!
Entries of a table moved to new keys, one after the other. A key goes to the first entry that asks
for it; a later one is dropped, unless it is pinned and stays where it is.
-/

namespace Relabel

structure Move (κ ν : Type) where
  source : κ
  target : κ
  moved : ν
  pinned : Bool

variable {κ ν : Type}

/-- No two moves are of one key, and none goes to a key another one leaves. -/
structure Apart (moves : List (Move κ ν)) : Prop where
  sources : (moves.map Move.source).Nodup
  targets : ∀ a ∈ moves, ∀ b ∈ moves, a.source ≠ b.target

variable {moves moves' : List (Move κ ν)} {move : Move κ ν}

theorem Apart.tail (apart : Apart (move :: moves)) : Apart moves := by
  obtain ⟨sources, targets⟩ := apart
  exact ⟨(List.nodup_cons.mp sources).2, fun a here b there =>
    targets a (List.mem_cons_of_mem _ here) b (List.mem_cons_of_mem _ there)⟩

theorem Apart.perm (apart : Apart moves) (perm : moves'.Perm moves) : Apart moves' :=
  ⟨((perm.map Move.source).nodup_iff).mpr apart.sources, fun a here b there =>
    apart.targets a (perm.mem_iff.mp here) b (perm.mem_iff.mp there)⟩

variable [DecidableEq κ]

def Move.apply (table : κ → Option ν) (move : Move κ ν) : κ → Option ν := fun key =>
  if (table move.target).isNone then
    if key = move.target then some move.moved else if key = move.source then none else table key
  else if move.pinned then table key
  else if key = move.source then none else table key

def moveAll (table : κ → Option ν) (moves : List (Move κ ν)) : κ → Option ν :=
  moves.foldl Move.apply table

/-- The move that gets the key. -/
def claimant (moves : List (Move κ ν)) (key : κ) : Option (Move κ ν) :=
  moves.find? fun move => move.target = key

section Rules

variable {table : κ → Option ν} {key : κ}

theorem moveAll_cons (table : κ → Option ν) (move : Move κ ν) (moves : List (Move κ ν)) :
    moveAll table (move :: moves) = moveAll (move.apply table) moves := rfl

/-- A key no move leaves. -/
theorem apply_of_ne (other : key ≠ move.source) : move.apply table key =
    (table key).or (if move.target = key then some move.moved else none) := by
  unfold Move.apply
  by_cases here : key = move.target
  · subst here
    cases found : table move.target with
    | none => simp
    | some value => simp [other]
  · have there : move.target ≠ key := fun same => here same.symm
    simp [here, there, other]

theorem apply_source (apart : move.source ≠ move.target) : move.apply table move.source =
    if (table move.target).isNone = false ∧ move.pinned = true then table move.source else none := by
  unfold Move.apply
  cases (table move.target).isNone <;> cases move.pinned <;> simp [apart]

theorem moveAll_unmoved (unmoved : ∀ move ∈ moves, move.source ≠ key) :
    moveAll table moves key = (table key).or ((claimant moves key).map Move.moved) := by
  induction moves generalizing table with
  | nil => simp [moveAll, claimant]
  | cons move moves ih =>
    have here := unmoved move List.mem_cons_self
    rw [moveAll_cons, ih fun other member => unmoved other (List.mem_cons_of_mem _ member),
      apply_of_ne fun same => here same.symm]
    unfold claimant
    rw [List.find?_cons]
    by_cases claims : move.target = key
    · cases table key <;> simp [claims]
    · simp [claims]

theorem moveAll_moved (apart : Apart moves) (member : move ∈ moves) :
    (moveAll table moves move.source = none ∧ table move.target = none ∧
        claimant moves move.target = some move) ∨
      (moveAll table moves move.source = (if move.pinned then table move.source else none) ∧
        ¬(table move.target = none ∧ claimant moves move.target = some move)) := by
  induction moves generalizing table with
  | nil => cases member
  | cons first moves ih =>
    have own := apart.targets move member move member
    have away := apart.targets move member first List.mem_cons_self
    rw [moveAll_cons]
    rcases List.mem_cons.mp member with rfl | later
    · have gone : ∀ other ∈ moves, other.source ≠ move.source := by
        intro other member' same
        have fresh := (List.nodup_cons.mp apart.sources).1
        exact fresh (List.mem_map.mpr ⟨other, member', same⟩)
      have none : claimant moves move.source = none := by
        refine List.find?_eq_none.mpr fun other member' => ?_
        simpa using fun same => apart.targets move member other (List.mem_cons_of_mem _ member') same.symm
      have claims : claimant (move :: moves) move.target = some move := by simp [claimant]
      rw [moveAll_unmoved gone, none, apply_source own]
      cases found : table move.target with
      | none => exact .inl ⟨by simp, rfl, claims⟩
      | some value =>
        refine .inr ⟨?_, fun both => nomatch both.1⟩
        cases move.pinned <;> simp
    · have different : move.source ≠ first.source := by
        intro same
        have fresh := (List.nodup_cons.mp apart.sources).1
        exact fresh (List.mem_map.mpr ⟨move, later, same⟩)
      have kept : first.apply table move.source = table move.source := by
        have elsewhere : first.target ≠ move.source := fun same => away same.symm
        rw [apply_of_ne different, if_neg elsewhere, Option.or_none]
      have target : first.apply table move.target =
          (table move.target).or (if first.target = move.target then some first.moved else none) :=
        apply_of_ne fun same => apart.targets first List.mem_cons_self move member same.symm
      have claims : claimant (first :: moves) move.target =
          if first.target = move.target then some first else claimant moves move.target := by
        unfold claimant
        rw [List.find?_cons]
        by_cases same : first.target = move.target <;> simp [same]
      have rest := @ih (first.apply table) apart.tail later
      rw [kept, target] at rest
      rw [claims]
      by_cases same : first.target = move.target
      · have taken : (table move.target).or (some first.moved) ≠ none := by
          cases table move.target <;> simp
        simp only [same, if_true] at rest ⊢
        rcases rest with ⟨-, vacant, -⟩ | ⟨result, -⟩
        · exact absurd vacant taken
        · refine .inr ⟨result, fun both => different ?_⟩
          rw [Option.some.inj both.2]
      · simpa [same] using rest

/-- Moves that find their keys taken and are pinned change nothing. -/
theorem moveAll_idle (idle : ∀ move ∈ moves, table move.target ≠ none ∧ move.pinned = true) :
    moveAll table moves = table := by
  induction moves with
  | nil => rfl
  | cons move moves ih =>
    obtain ⟨taken, pinned⟩ := idle move List.mem_cons_self
    have still : move.apply table = table := by
      funext key
      unfold Move.apply
      simp [Option.isNone_iff_eq_none, taken, pinned]
    rw [moveAll_cons, still]
    exact ih fun other member => idle other (List.mem_cons_of_mem _ member)

/-- Two moves either of which may come first. -/
def Alike (a b : Move κ ν) : Prop := a = b ∨ (a.moved = b.moved ∧ a.pinned = false)

theorem claimant_mem (found : claimant moves key = some move) : move ∈ moves ∧ move.target = key :=
  ⟨List.mem_of_find?_eq_some found, by simpa using List.find?_some found⟩

theorem claimant_perm (perm : moves'.Perm moves) (found : claimant moves key = some move) :
    ∃ other, claimant moves' key = some other := by
  cases none : claimant moves' key with
  | some other => exact ⟨other, rfl⟩
  | none =>
    obtain ⟨member, same⟩ := claimant_mem found
    have missed := List.find?_eq_none.mp none move (perm.mem_iff.mpr member)
    simp [same] at missed

/-- When moves that ask for one vacant key are alike, their order does not matter. -/
theorem moveAll_perm (apart : Apart moves) (perm : moves'.Perm moves)
    (alike : ∀ a ∈ moves, ∀ b ∈ moves, a.target = b.target → table a.target = none → Alike a b) :
    moveAll table moves' = moveAll table moves := by
  have apart' := apart.perm perm
  funext key
  by_cases moved : ∃ move ∈ moves, move.source = key
  · obtain ⟨move, member, rfl⟩ := moved
    have member' := perm.mem_iff.mpr member
    have unpinned {other : Move κ ν} {list : List (Move κ ν)} (sub : list.Perm moves)
        (vacant : table move.target = none) (found : claimant list move.target = some other)
        (different : other ≠ move) : move.pinned = false := by
      obtain ⟨here, same⟩ := claimant_mem found
      rcases alike move member other (sub.mem_iff.mp here) same.symm vacant with rfl | ⟨-, free⟩
      · exact absurd rfl different
      · exact free
    rcases @moveAll_moved _ _ _ _ _ table apart' member' with ⟨one, vacant, first⟩ | ⟨one, lost⟩
    · rcases @moveAll_moved _ _ _ _ _ table apart member with ⟨two, -⟩ | ⟨two, other⟩
      · rw [one, two]
      · obtain ⟨winner, found⟩ := claimant_perm perm.symm first
        have free := unpinned (List.Perm.refl _) vacant found fun same =>
          other ⟨vacant, same ▸ found⟩
        rw [one, two, free]
        rfl
    · rcases @moveAll_moved _ _ _ _ _ table apart member with ⟨two, vacant, first⟩ | ⟨two, -⟩
      · obtain ⟨winner, found⟩ := claimant_perm perm first
        have free := unpinned perm vacant found fun same => lost ⟨vacant, same ▸ found⟩
        rw [one, two, free]
        rfl
      · rw [one, two]
  · have unmoved : ∀ move ∈ moves, move.source ≠ key := fun move member same =>
      moved ⟨move, member, same⟩
    rw [moveAll_unmoved unmoved, moveAll_unmoved fun move member => unmoved move (perm.mem_iff.mp member)]
    cases vacant : table key with
    | some value => rfl
    | none =>
      cases found : claimant moves key with
      | none =>
        cases found' : claimant moves' key with
        | none => rfl
        | some other =>
          obtain ⟨again, here⟩ := claimant_perm perm.symm found'
          cases found.symm.trans here
      | some move =>
        obtain ⟨other, found'⟩ := claimant_perm perm found
        obtain ⟨member, rfl⟩ := claimant_mem found
        obtain ⟨member', same⟩ := claimant_mem found'
        rw [found']
        rcases alike move member other (perm.mem_iff.mp member') same.symm vacant with rfl | ⟨moved, -⟩
        · rfl
        · simp [moved]

end Rules

end Relabel
