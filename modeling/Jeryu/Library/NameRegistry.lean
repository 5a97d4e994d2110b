import Mathlib.Logic.Function.Basic

/-!
Things with a lasting identity under names that change. A name a thing left behind redirects to
the name it has now; a name may be given to another thing once it is free.
-/

namespace NameRegistry

variable {Name Id : Type}

/-- What each name holds, and where a name that was left behind redirects. -/
structure Registry (Name Id : Type) where
  held : Name → Option Id
  redirect : Name → Option (Id × Name)

namespace Registry

variable [DecidableEq Id]

/-- What a name stands for: what it holds, else what its redirect finds in one hop. -/
def resolve (r : Registry Name Id) (name : Name) : Option Id :=
  match r.held name with
  | some id => some id
  | none => (r.redirect name).bind fun (id, now) => (r.held now).filter (· = id)

variable [DecidableEq Name]

def claim (r : Registry Name Id) (name : Name) (id : Id) : Registry Name Id where
  held := Function.update r.held name (some id)
  redirect := r.redirect

/-- A thing goes, with every redirect to it. -/
def release (r : Registry Name Id) (name : Name) (id : Id) : Registry Name Id where
  held := Function.update r.held name none
  redirect other := (r.redirect other).filter (·.1 ≠ id)

/-- A thing moves, and every redirect to it follows. -/
def move (r : Registry Name Id) (old new : Name) (id : Id) : Registry Name Id where
  held := Function.update (Function.update r.held old none) new (some id)
  redirect other :=
    if other = old then some (id, new)
    else if other = new then none
    else (r.redirect other).map fun (target, now) => if target = id then (id, new) else (target, now)

end Registry

open Registry

/-- `drawn` are the identities that may be given out. -/
inductive Step [DecidableEq Name] [DecidableEq Id] (drawn : Id → Prop) (r : Registry Name Id) :
    Registry Name Id → Prop where
  | claim {name : Name} {id : Id} (free : r.held name = none) (new : drawn id)
      (fresh : ∀ other, r.held other ≠ some id) : Step drawn r (r.claim name id)
  | release {name : Name} {id : Id} (found : r.held name = some id) :
      Step drawn r (r.release name id)
  | move {old new : Name} {id : Id} (found : r.held old = some id) (free : r.held new = none) :
      Step drawn r (r.move old new id)

/-- Every redirect ends where its thing is, and no thing has two names. -/
structure Registry.Sound (r : Registry Name Id) : Prop where
  redirects : ∀ name id now, r.redirect name = some (id, now) → r.held now = some id
  single : ∀ name other id, r.held name = some id → r.held other = some id → name = other

theorem sound_empty : (⟨fun _ => none, fun _ => none⟩ : Registry Name Id).Sound :=
  ⟨fun _ _ _ found => (nomatch found), fun _ _ _ found => (nomatch found)⟩

/-- While the thing is there, the name holds it, or is free and redirects to it. -/
def Registry.Remembers (r : Registry Name Id) (name : Name) (id : Id) : Prop :=
  (∃ now, r.held now = some id) →
    r.held name = some id ∨ (r.held name = none ∧ ∃ now, r.redirect name = some (id, now))

section Rules

variable [DecidableEq Name] [DecidableEq Id] {drawn : Id → Prop} {r r' : Registry Name Id}

theorem Step.mono {drawn' : Id → Prop} (step : Step drawn r r')
    (weaker : ∀ id, drawn id → drawn' id) : Step drawn' r r' := by
  cases step with
  | claim free new fresh => exact .claim free (weaker _ new) fresh
  | release found => exact .release found
  | move found free => exact .move found free

omit [DecidableEq Id] in
theorem claim_held (r : Registry Name Id) (name other : Name) (id : Id) :
    (r.claim name id).held other = if other = name then some id else r.held other := by
  simp [Registry.claim, Function.update_apply]

theorem release_held (r : Registry Name Id) (name other : Name) (id : Id) :
    (r.release name id).held other = if other = name then none else r.held other := by
  simp [Registry.release, Function.update_apply]

theorem move_held (r : Registry Name Id) (old new other : Name) (id : Id) :
    (r.move old new id).held other =
      if other = new then some id else if other = old then none else r.held other := by
  simp [Registry.move, Function.update_apply]

theorem Step.sound (step : Step drawn r r') (sound : r.Sound) : r'.Sound := by
  cases step with
  | @claim name id free new fresh =>
    constructor
    · intro other target now found
      have held := sound.redirects other target now found
      have elsewhere : now ≠ name := by
        rintro rfl
        cases free.symm.trans held
      rw [claim_held, if_neg elsewhere, held]
    · intro first second target here there
      rw [claim_held] at here there
      by_cases one : first = name <;> by_cases two : second = name
      · rw [one, two]
      · rw [if_pos one] at here
        rw [if_neg two] at there
        cases here
        exact absurd there (fresh second)
      · rw [if_neg one] at here
        rw [if_pos two] at there
        cases there
        exact absurd here (fresh first)
      · rw [if_neg one] at here
        rw [if_neg two] at there
        exact sound.single first second target here there
  | @release name id found =>
    constructor
    · intro other target now redirected
      obtain ⟨known, other⟩ := Option.filter_eq_some_iff.mp redirected
      have held := sound.redirects _ target now known
      have elsewhere : now ≠ name := by
        rintro rfl
        cases found.symm.trans held
        simp at other
      rw [release_held, if_neg elsewhere, held]
    · intro first second target here there
      rw [release_held] at here there
      split at here
      · cases here
      · split at there
        · cases there
        · exact sound.single first second target here there
  | @move old new id found free =>
    constructor
    · intro other target now redirected
      simp only [Registry.move] at redirected
      split at redirected
      · cases redirected
        rw [move_held, if_pos rfl]
      · split at redirected
        · cases redirected
        · obtain ⟨⟨target', now'⟩, known, same⟩ := Option.map_eq_some_iff.mp redirected
          have held := sound.redirects _ target' now' known
          by_cases own : target' = id
          · rw [if_pos own] at same
            cases same
            rw [move_held, if_pos rfl]
          · rw [if_neg own] at same
            cases same
            have notNew : now' ≠ new := by
              rintro rfl
              cases free.symm.trans held
            have notOld : now' ≠ old := by
              rintro rfl
              exact own (Option.some.inj (held.symm.trans found))
            rw [move_held, if_neg notNew, if_neg notOld, held]
    · have kept (name : Name) (target : Id) (held : (r.move old new id).held name = some target) :
          (name = new ∧ target = id) ∨ (name ≠ old ∧ r.held name = some target) := by
        rw [move_held] at held
        split at held
        · next here => exact .inl ⟨here, (Option.some.inj held).symm⟩
        · split at held
          · cases held
          · next away => exact .inr ⟨away, held⟩
      intro first second target here there
      rcases kept first target here with ⟨rfl, rfl⟩ | ⟨away, held⟩ <;>
        rcases kept second _ there with ⟨rfl, same⟩ | ⟨away', held'⟩
      · rfl
      · exact absurd (sound.single _ _ _ held' found) away'
      · subst same
        exact absurd (sound.single _ _ _ held found) away
      · exact sound.single first second target held held'

/-- A thing keeps the names it left while nothing else takes them. -/
theorem Step.remembers (step : Step drawn r r') (sound : r.Sound) {name : Name} {id : Id}
    (old : ¬drawn id) (untaken : ∀ other, r'.held name = some other → other = id)
    (remembers : r.Remembers name id) : r'.Remembers name id := by
  rintro ⟨now, there⟩
  cases step with
  | @claim claimed given free new fresh =>
    have different : given ≠ id := fun same => old (same ▸ new)
    rw [claim_held] at there untaken ⊢
    have elsewhere : name ≠ claimed := fun same => by
      rw [if_pos same] at untaken
      exact different (untaken given rfl)
    rw [if_neg elsewhere]
    split at there
    · exact absurd (Option.some.inj there) different
    · exact remembers ⟨now, there⟩
  | @release left gone found =>
    rw [release_held] at there ⊢
    split at there
    · cases there
    · next elsewhere =>
      have different : id ≠ gone := fun same => by
        subst same
        exact elsewhere (sound.single _ _ _ there found)
      rcases remembers ⟨now, there⟩ with held | ⟨vacant, now', redirected⟩
      · have kept : name ≠ left := fun same => by
          subst same
          exact different (Option.some.inj (held.symm.trans found))
        exact .inl (by rw [if_neg kept, held])
      · refine .inr ⟨by split <;> first | rfl | exact vacant, now', ?_⟩
        simp only [Registry.release, redirected]
        simp [Option.filter, different]
  | @move left taken moved found free =>
    have inPlace : ∃ now, r.held now = some id := by
      rw [move_held] at there
      split at there
      · exact ⟨left, found.trans there⟩
      · split at there
        · cases there
        · exact ⟨now, there⟩
    rw [move_held] at untaken ⊢
    by_cases arrives : name = taken
    · rw [if_pos arrives] at untaken ⊢
      exact .inl (by rw [untaken moved rfl])
    · rw [if_neg arrives]
      rcases remembers inPlace with held | ⟨vacant, now', redirected⟩
      · by_cases leaves : name = left
        · subst leaves
          rw [if_pos rfl]
          have same := Option.some.inj (found.symm.trans held)
          exact .inr ⟨rfl, taken, by simp [Registry.move, same]⟩
        · exact .inl (by rw [if_neg leaves, held])
      · have stays : name ≠ left := fun same => by
          subst same
          cases vacant.symm.trans found
        rw [if_neg stays]
        refine .inr ⟨vacant, if id = moved then taken else now', ?_⟩
        simp only [Registry.move, if_neg stays, if_neg arrives, redirected, Option.map_some]
        split
        · next same => rw [same]
        · rfl

omit [DecidableEq Name] in
theorem Registry.Remembers.resolve {name now : Name} {id : Id} (remembers : r.Remembers name id)
    (sound : r.Sound) (there : r.held now = some id) : r.resolve name = some id := by
  unfold Registry.resolve
  rcases remembers ⟨now, there⟩ with held | ⟨vacant, target, redirected⟩
  · rw [held]
  · have held := sound.redirects _ _ _ redirected
    simp [vacant, redirected, held]

end Rules

end NameRegistry
