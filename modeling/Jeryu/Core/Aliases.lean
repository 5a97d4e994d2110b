import Jeryu.Core.Runs
import Jeryu.Library.NameRegistry

/-!
Old names of repositories. The repositories and the aliases of the core are a name registry:
every section leaves the registry alone or takes one of its steps.
-/

namespace Jeryu.Core

open KeyedMap HashMap LockProgram NameRegistry

/-- The repositories by their identifiers, and the aliases. -/
def State.registry (s : State) : Registry Slug Uuid where
  held slug := (s.repos.lookup slug).map Repository.id
  redirect slug := (s.repositoryAliases.lookup slug).map fun redirect =>
    (redirect.repositoryId, redirect.canonical)

section Registry

variable {print : Footprint} {s s' : State} {slug : Slug} {id : Uuid}

theorem State.registry_held : s.registry.held slug = some id ↔
    ∃ repo, s.repos.lookup slug = some repo ∧ repo.id = id := Option.map_eq_some_iff

theorem State.registry_redirect {now : Slug} : s.registry.redirect slug = some (id, now) ↔
    ∃ redirect, s.repositoryAliases.lookup slug = some redirect ∧ redirect.repositoryId = id ∧
      redirect.canonical = now := by
  simp [State.registry, Option.map_eq_some_iff, Prod.ext_iff]

/-- `resolve_repository` answers what the registry resolves to. -/
theorem State.resolveRepository_id (s : State) (owner name : String) :
    (s.resolveRepository owner name).map Repository.id = s.registry.resolve (owner, name) := by
  unfold State.resolveRepository Registry.resolve State.registry
  dsimp only
  cases s.repos.lookup (owner, name) with
  | some repo => rfl
  | none =>
    cases s.repositoryAliases.lookup (owner, name) with
    | none => rfl
    | some redirect =>
      simp only [Option.map_none, Option.map_some, Option.bind_some, RepositoryAlias.canonical]
      cases s.repos.lookup (redirect.canonicalOwner, redirect.canonicalName) with
      | none => rfl
      | some repo =>
        by_cases same : repo.id = redirect.repositoryId <;> simp [Option.filter, same]

/-- It answers a stored repository, under the slug it has. -/
theorem State.resolveRepository_stored {owner name : String} {repo : Repository}
    (resolved : s.resolveRepository owner name = some repo) :
    ∃ slug, s.repos.lookup slug = some repo := by
  unfold State.resolveRepository at resolved
  split at resolved
  · next found =>
    cases resolved
    exact ⟨_, found⟩
  · split at resolved
    · exact ⟨_, (Option.filter_eq_some_iff.mp resolved).1⟩
    · cases resolved

theorem Registry.ext {r r' : Registry Slug Uuid} (held : ∀ slug, r'.held slug = r.held slug)
    (redirect : ∀ slug, r'.redirect slug = r.redirect slug) : r' = r := by
  cases r
  cases r'
  congr
  · exact funext held
  · exact funext redirect

theorem State.registry_insert {entry updated : Repository} (found : s.repos.lookup slug = some entry)
    (same : updated.id = entry.id) :
    ({ s with repos := s.repos.insert slug updated } : State).registry = s.registry := by
  refine Registry.ext (fun other => ?_) fun _ => rfl
  simp only [State.registry, lookup_insert_if]
  split
  · next here =>
    subst here
    simp [found, same]
  · rfl

theorem Touch.registry (touch : Touch print s s') : s'.registry = s.registry := by
  cases touch with
  | repositoryEdited found => exact State.registry_insert found rfl
  | @defaultBranchSet slug entry updated found within branch now edited =>
    rw [State.ensureDefaultBranchProtection_eq]
    exact State.registry_insert found (by rw [edited])
  | @optOutSet slug entry updated found within optOut now edited =>
    rw [State.withOptOut_eq]
    exact State.registry_insert found (by rw [edited])
  | @issueOpened numbered issue may within next =>
    have counted : numbered = (s.nextRecordNumber issue.owner issue.repo).2 := by rw [next]
    subst counted
    rfl
  | _ => rfl

theorem Touches.registry (touches : Touches print s s') : s'.registry = s.registry := by
  induction touches with
  | refl => rfl
  | tail _ touch ih => rw [touch.registry, ih]

theorem Shift.registry (shift : Shift print s s')
    (fresh : ∀ id, print.drawn id → ∀ slug repo, s.repos.lookup slug = some repo → repo.id ≠ id) :
    Step print.drawn s.registry s'.registry := by
  cases shift with
  | created repo now free drawn named =>
    have same : ({ s with
        counters := s.counters.insert repo.slug ⟨0, 0⟩
        repos := s.repos.insert repo.slug repo } : State).registry =
        s.registry.claim repo.slug repo.id := by
      refine Registry.ext (fun other => ?_) fun _ => rfl
      rw [claim_held]
      simp only [State.registry, lookup_insert_if]
      split <;> rfl
    rw [State.ensureDefaultBranchProtection_eq]
    change Step print.drawn s.registry ({ s with
        counters := s.counters.insert repo.slug ⟨0, 0⟩
        repos := s.repos.insert repo.slug repo } : State).registry
    rw [same]
    refine .claim (by simp [State.registry, free]) drawn fun other held => ?_
    obtain ⟨stored, found, own⟩ := State.registry_held.mp held
    exact fresh _ drawn other stored found own
  | @deleted slug repo found =>
    have same : (s.withoutRepository slug.1 slug.2 repo.id).registry =
        s.registry.release slug repo.id := by
      refine Registry.ext (fun other => ?_) fun other => ?_
      · rw [release_held]
        simp only [State.registry, State.withoutRepository, lookup_erase_if]
        split <;> rfl
      · simp only [State.registry, State.withoutRepository, Registry.release, lookup_retain]
        cases s.repositoryAliases.lookup other with
        | none => rfl
        | some redirect =>
          by_cases gone : redirect.repositoryId = repo.id <;> simp [Option.filter, gone]
    rw [same]
    exact .release (State.registry_held.mpr ⟨repo, found, rfl⟩)
  | @relocated old new repo found free now aliases redirected transfers deployments =>
    have different : new ≠ old := ne_of_lookup found free
    have same : ({ s.rekeyed old new (movedRepository new now repo) with
        repositoryAliases := aliases, repositoryTransfers := transfers, deployments } :
        State).registry = s.registry.move old new repo.id := by
      refine Registry.ext (fun other => ?_) fun other => ?_
      · rw [move_held]
        simp only [State.registry, State.rekeyed, lookup_insert_if, lookup_erase_if]
        split
        · rfl
        · split <;> rfl
      · simp only [State.registry, Registry.move]
        split
        · next here =>
          obtain ⟨redirect, left, own, ends⟩ := redirected.left
          subst here
          simp [left, own, ends]
        · next away =>
          split
          · next here =>
            subst here
            simp [redirected.taken]
          · next elsewhere =>
            rw [redirected.others other away elsewhere]
            cases s.repositoryAliases.lookup other with
            | none => rfl
            | some redirect =>
              by_cases own : redirect.repositoryId = repo.id
              · simp [own, retargeted_canonical own]
              · simp [own, retargeted_other own]
    rw [same]
    exact .move (State.registry_held.mpr ⟨repo, found, rfl⟩) (by simp [State.registry, free])

/-- What a section does to the registry. -/
theorem Moves.registry (moves : Moves print s s')
    (fresh : ∀ id, print.drawn id → ∀ slug repo, s.repos.lookup slug = some repo → repo.id ≠ id) :
    s'.registry = s.registry ∨ Step print.drawn s.registry s'.registry := by
  cases moves with
  | touches writes => exact .inl (Touches.registry writes)
  | shift may moved => exact .inr (moved.registry fresh)

end Registry

section Sections

variable {call : Call} {core core' : ForgeCore}

theorem Effect.registry (effect : Effect call core core') (coherent : core.Coherent) :
    core'.state.registry = core.state.registry ∨
      Step (core.uuids ≤ ·) core.state.registry core'.state.registry := by
  have moved := effect.moves.registry fun _ drawn _ _ found =>
    Nat.ne_of_lt (Nat.lt_of_lt_of_le (coherent.identified.repoIds _ _ found) drawn.1)
  rcases moved with same | step
  · exact .inl same
  · exact .inr (step.mono fun _ drawn => drawn.1)

theorem Ambient.registry (ambient : Ambient core core') :
    core'.state.registry = core.state.registry := by
  obtain ⟨users, accounts, bots, botRepoGrants, organizations, auth, same⟩ := ambient.state
  rw [same]
  rfl

theorem Effect.registry_sound (effect : Effect call core core') (coherent : core.Coherent)
    (sound : core.state.registry.Sound) : core'.state.registry.Sound := by
  rcases effect.registry coherent with same | step
  · rwa [same]
  · exact step.sound sound

end Sections

/-- A section leaves `slug` to the repository `id`: it creates no other there and moves none to
    it. -/
def LeavesTo (slug : Slug) (id : Uuid) (_ : Call) (update : ForgeCore → ForgeCore)
    (core : ForgeCore) : Prop :=
  ∀ repo, (update core).state.repos.lookup slug = some repo → repo.id = id

/-- What old names resolve to, in the pool and after it. -/
structure OldNamesResolve (pool : Pool) : Prop where
  /-- Every alias names its repository where it is. -/
  aliases : pool.shared.state.repositoryAliases.Every fun _ redirect => ∃ repo,
    pool.shared.state.repos.lookup (redirect.canonicalOwner, redirect.canonicalName) = some repo ∧
      repo.id = redirect.repositoryId
  /-- A slug the repository has resolves to it for as long as it exists and no other takes the
      slug, wherever it moves. -/
  resolves : ∀ slug repo, pool.shared.state.repos.lookup slug = some repo →
    ∀ pool' : Pool, Run forge (LeavesTo slug repo.id) pool pool' →
      ∀ slug' repo', pool'.shared.state.repos.lookup slug' = some repo' → repo'.id = repo.id →
        pool'.shared.state.resolveRepository slug.1 slug.2 = some repo'

section Runs

variable {pool pool' : Pool} {condition : Call → ForgeCore → Prop}

theorem Pool.ReachableWhen.registry_sound (reachable : pool.ReachableWhen condition) :
    pool.shared.state.registry.Sound := by
  refine reachable.invariant (I := fun core => core.state.registry.Sound) (fun core empty => ?_)
    (fun core core' sound moved => ?_) fun call core core' reply coherent sound _ _ effect =>
      effect.registry_sound coherent sound
  · rw [empty]
    exact sound_empty
  · rwa [moved.registry]

/-- What a core knows of a repository that had the slug. -/
structure Recalls (slug : Slug) (id : Uuid) (core : ForgeCore) : Prop where
  coherent : core.Coherent
  sound : core.state.registry.Sound
  old : id < core.uuids
  remembers : core.state.registry.Remembers slug id

theorem recalls_certified (slug : Slug) (id : Uuid) :
    Certified forge (LeavesTo slug id) (Recalls slug id) Section fun _ _ => True where
  programs call := (call_writes call).meets.mono (fun _ _ => True.intro) (fun _ _ _ _ moved => moved)
    fun _ known => known
  ambient core core' recalls moved := by
    refine ⟨moved.coherent recalls.coherent, ?_, Nat.lt_of_lt_of_le recalls.old moved.uuids, ?_⟩
    · rw [moved.registry]
      exact recalls.sound
    · rw [moved.registry]
      exact recalls.remembers
  kept call update core reply recalls left sect := by
    have effect := section_effect recalls.coherent sect
    refine ⟨effect.coherent recalls.coherent, effect.registry_sound recalls.coherent recalls.sound,
      Nat.lt_of_lt_of_le recalls.old effect.uuids, ?_⟩
    rcases effect.registry recalls.coherent with same | step
    · rw [same]
      exact recalls.remembers
    · refine step.remembers recalls.sound (Nat.not_le.mpr recalls.old) (fun other held => ?_)
        recalls.remembers
      obtain ⟨repo, found, own⟩ := State.registry_held.mp held
      exact own ▸ left repo found

end Runs

theorem old_names_resolve {pool : Pool} (reachable : pool.Reachable) : OldNamesResolve pool where
  aliases slug redirect found := by
    have redirected : pool.shared.state.registry.redirect slug =
        some (redirect.repositoryId, redirect.canonical) :=
      State.registry_redirect.mpr ⟨redirect, found, rfl, rfl⟩
    exact State.registry_held.mp (reachable.registry_sound.redirects _ _ _ redirected)
  resolves slug repo found pool' run slug' repo' found' same := by
    have sound := reachable.sound
    have holds : Recalls slug repo.id pool.shared :=
      ⟨reachable.coherent, reachable.registry_sound, reachable.coherent.identified.repoIds _ _ found,
        fun _ => .inl (State.registry_held.mpr ⟨repo, found, rfl⟩)⟩
    have recalls := ((recalls_certified slug repo.id).run run
      ⟨holds, fun task member => (sound.tasks task member).mono (fun _ recalls => recalls.coherent)
        (fun _ _ _ _ moved => moved) fun _ known => known⟩).holds
    have there : pool'.shared.state.registry.held slug' = some repo.id :=
      State.registry_held.mpr ⟨repo', found', same⟩
    have resolved := recalls.remembers.resolve recalls.sound there
    have answered : (pool'.shared.state.resolveRepository slug.1 slug.2).map Repository.id =
        some repo.id := (State.resolveRepository_id ..).trans resolved
    obtain ⟨answer, known, own⟩ := Option.map_eq_some_iff.mp answered
    obtain ⟨stored, kept⟩ := State.resolveRepository_stored known
    obtain rfl := recalls.coherent.identified.repos stored slug' answer repo' repo.id kept found' own same
    rw [known, ← kept, found']

section Demo

/-- The demo repository moved twice, and another one created where it was first. -/
def movedTwice : List (Turn Call) :=
  [.alone .newDemo, .alone (.renameRepository "root" "acme" "demo" "acme" "first"),
    .alone (.renameRepository "root" "acme" "first" "acme" "second"), .alone .newDemo]

theorem old_names_demo : OldNamesResolve (ForgeCore.durable.played movedTwice) :=
  old_names_resolve (played_any rfl (by decide))

end Demo

end Jeryu.Core
