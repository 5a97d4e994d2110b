import Jeryu.Core.Aliases

/-!
Every repo-scoped record under the slug of a repository that exists, as long as the sections
that create records find the repository they create them for.
-/

namespace Jeryu.Core

open KeyedMap HashMap LockProgram

/-- Every key of every repo-scoped map is of a slug in `L`. -/
structure State.RootedIn (L : Slug → Prop) (s : State) : Prop where
  repoGrants : s.repoGrants.Every fun key _ => L key.2
  labels : s.labels.Every fun key _ => L (Scoped.slug key)
  issues : s.issues.Every fun key _ => L (Scoped.slug key)
  issueComments : s.issueComments.Every fun key _ => L (Scoped.slug key)
  pulls : s.pulls.Every fun key _ => L (Scoped.slug key)
  reviews : s.reviews.Every fun key _ => L (Scoped.slug key)
  reviewComments : s.reviewComments.Every fun key _ => L (Scoped.slug key)
  branchProtections : s.branchProtections.Every fun key _ => L (Scoped.slug key)
  codeowners : s.codeowners.Every fun slug _ => L slug
  readmes : s.readmes.Every fun slug _ => L slug
  statuses : s.statuses.Every fun key _ => L (Scoped.slug key)
  checkRuns : s.checkRuns.Every fun slug _ => L slug
  webhooks : s.webhooks.Every fun slug _ => L slug
  counters : s.counters.Every fun slug _ => L slug
  jankuraiScores : s.jankuraiScores.Every fun slug _ => L slug

/-- Every record belongs to a repository that exists. -/
def State.Rooted (s : State) : Prop := s.RootedIn s.Live

theorem rooted_empty : State.empty.Rooted := by
  constructor <;> exact every_empty

theorem State.RootedIn.mono {L L' : Slug → Prop} {s : State} (rooted : s.RootedIn L)
    (weaker : ∀ slug, L slug → L' slug) : s.RootedIn L' := by
  obtain ⟨grants, labels, issues, comments, pulls, reviews, reviewComments, rules, owners, readmes,
    statuses, runs, hooks, counters, scores⟩ := rooted
  constructor
  all_goals
    refine Every.mono ?_ fun key _ held => weaker _ held
    assumption

section Touch

variable {print : Footprint} {L : Slug → Prop} {s s' : State}

theorem State.Live.of_registry (same : s'.registry = s.registry) {slug : Slug} (live : s.Live slug) :
    s'.Live slug := by
  obtain ⟨repo, found⟩ := live
  have held : s'.registry.held slug = some repo.id := by
    rw [same]
    exact State.registry_held.mpr ⟨repo, found, rfl⟩
  obtain ⟨repo', found', -⟩ := State.registry_held.mp held
  exact ⟨repo', found'⟩

theorem every_rule_ensured {repo : Repository} {now : DateTime}
    (every : s.branchProtections.Every fun key _ => L (Scoped.slug key)) (own : L repo.slug) :
    (s.ensureDefaultBranchProtection repo now).branchProtections.Every
      fun key _ => L (Scoped.slug key) := by
  intro key rule found
  rcases State.lookup_ensureDefaultBranchProtection found with stored | ⟨rfl, -, -⟩
  · exact every _ _ stored
  · exact own

theorem every_rule_optOut {owner repo : String} {updated : Repository} {now : DateTime}
    (every : s.branchProtections.Every fun key _ => L (Scoped.slug key)) (own : L updated.slug) :
    (s.withOptOut owner repo updated now).branchProtections.Every
      fun key _ => L (Scoped.slug key) := by
  intro key rule found
  rcases State.lookup_withOptOut found with stored | ⟨rfl, -⟩
  · exact every _ _ stored
  · exact own

/-- A record is written under a slug that has one already, or under one it may be created for. -/
theorem Touch.rootedIn (touch : Touch print s s') (keyed : s.WellKeyed)
    (live : ∀ slug, s.Live slug → L slug) (creates : ∀ slug, print.creates slug → L slug)
    (rooted : s.RootedIn L) : s'.RootedIn L := by
  cases touch with
  | granted grant may => exact { rooted with repoGrants := rooted.repoGrants.insert (creates _ may) }
  | revoked key => exact { rooted with repoGrants := rooted.repoGrants.erase key }
  | @defaultBranchSet slug entry updated found within branch now edited =>
    rw [State.ensureDefaultBranchProtection_eq]
    have own : updated.slug = slug := by
      rw [edited]
      exact (keyed.repos _ _ found).1
    exact { rooted with
      branchProtections := every_rule_ensured rooted.branchProtections
        (own.symm ▸ live slug ⟨entry, found⟩) }
  | @optOutSet slug entry updated found within optOut now edited =>
    rw [State.withOptOut_eq]
    have own : updated.slug = slug := by
      rw [edited]
      exact (keyed.repos _ _ found).1
    exact { rooted with
      branchProtections := every_rule_optOut rooted.branchProtections
        (own.symm ▸ live slug ⟨entry, found⟩) }
  | ruleSet rule may =>
    exact { rooted with branchProtections := rooted.branchProtections.insert (creates _ may) }
  | ruleRemoved branch =>
    exact { rooted with branchProtections := rooted.branchProtections.erase _ }
  | ruleRekeyed within found =>
    have stored := rooted.branchProtections _ _ found
    exact { rooted with branchProtections := (rooted.branchProtections.erase _).insert stored }
  | labelled owner repo label may =>
    exact { rooted with labels := rooted.labels.insert (creates _ may) }
  | codeownersSet slug contents may =>
    exact { rooted with codeowners := rooted.codeowners.insert (creates _ may) }
  | readmeSet slug markdown may =>
    exact { rooted with readmes := rooted.readmes.insert (creates _ may) }
  | hooked hook may => exact { rooted with webhooks := rooted.webhooks.insert (creates _ may) }
  | scored slug scores may =>
    exact { rooted with jankuraiScores := rooted.jankuraiScores.insert (creates _ may) }
  | @issueOpened numbered issue may within next =>
    have counted : numbered = (s.nextRecordNumber issue.owner issue.repo).2 := by rw [next]
    subst counted
    exact { rooted with
      counters := rooted.counters.insert (creates _ may)
      issues := rooted.issues.insert (creates _ may) }
  | issueEdited found =>
    have stored := rooted.issues _ _ found
    exact { rooted with issues := rooted.issues.insert stored }
  | commented comment found =>
    have stored := rooted.issues _ _ found
    exact { rooted with issueComments := rooted.issueComments.insert stored }
  | pullOpened pr own may => exact { rooted with pulls := rooted.pulls.insert (creates _ may) }
  | pullEdited found =>
    have stored := rooted.pulls _ _ found
    exact { rooted with pulls := rooted.pulls.insert stored }
  | pullUpdated found =>
    have stored := rooted.pulls _ _ found
    exact { rooted with pulls := rooted.pulls.insert stored }
  | pullMerged found =>
    have stored := rooted.pulls _ _ found
    exact { rooted with pulls := rooted.pulls.insert stored }
  | reviewed review found =>
    have stored := rooted.pulls _ _ found
    exact { rooted with reviews := rooted.reviews.insert stored }
  | reviewCommented comments found =>
    have stored := rooted.pulls _ _ found
    exact { rooted with reviewComments := rooted.reviewComments.insert stored }
  | statusPushed status may =>
    exact { rooted with statuses := rooted.statuses.insert (creates _ may) }
  | checkRunPushed run may =>
    exact { rooted with checkRuns := rooted.checkRuns.insert (creates _ may) }
  | _ => exact { rooted with }

theorem Touches.rootedIn (touches : Touches print s s') (keyed : s.WellKeyed)
    (live : ∀ slug, s.Live slug → L slug) (creates : ∀ slug, print.creates slug → L slug)
    (rooted : s.RootedIn L) : s'.RootedIn L := by
  induction touches with
  | refl => exact rooted
  | tail before touch ih =>
    refine touch.rootedIn (Touches.wellKeyed before keyed) (fun slug there => ?_) creates ih
    exact live slug (there.of_registry (Touches.registry before).symm)

theorem Touches.rooted (touches : Touches print s s') (keyed : s.WellKeyed)
    (creates : ∀ slug, print.creates slug → s.Live slug) (rooted : s.Rooted) : s'.Rooted := by
  have kept := Touches.rootedIn touches keyed (fun _ live => live) creates rooted
  exact kept.mono fun slug live => live.of_registry (Touches.registry touches)

end Touch

section Shift

variable {print : Footprint} {s s' : State} {κ ν : Type} [DecidableEq κ]

theorem every_drained {m : HashMap (Scoped κ) ν} {L : Slug → Prop} {slug : Slug}
    (every : m.Every fun key _ => L (Scoped.slug key)) :
    (drainScoped m slug.1 slug.2).Every fun key _ => L (Scoped.slug key) ∧ Scoped.slug key ≠ slug := by
  intro key value found
  rw [lookup_drainScoped] at found
  split at found
  · cases found
  · next elsewhere => exact ⟨every _ _ found, elsewhere⟩

theorem every_erased {m : HashMap Slug ν} {L : Slug → Prop} {slug : Slug}
    (every : m.Every fun key _ => L key) : (m.erase slug).Every fun key _ => L key ∧ key ≠ slug := by
  intro key value found
  rw [lookup_erase_if] at found
  split at found
  · cases found
  · next elsewhere => exact ⟨every _ _ found, elsewhere⟩

/-- Nothing of a repository outlives it. -/
theorem State.RootedIn.withoutRepository {L : Slug → Prop} (rooted : s.RootedIn L) (slug : Slug)
    (id : Uuid) :
    (s.withoutRepository slug.1 slug.2 id).RootedIn fun other => L other ∧ other ≠ slug where
  repoGrants key value found := by
    rw [State.withoutRepository, lookup_removeAll] at found
    split at found
    · cases found
    · next outside =>
      refine ⟨rooted.repoGrants _ _ found, fun here => outside ?_⟩
      exact mem_grantKeys.mpr ⟨mem_keys_of_lookup found, here⟩
  labels := every_drained rooted.labels
  issues := every_drained rooted.issues
  issueComments := every_drained rooted.issueComments
  pulls := every_drained rooted.pulls
  reviews := every_drained rooted.reviews
  reviewComments := every_drained rooted.reviewComments
  branchProtections := every_drained rooted.branchProtections
  codeowners := every_erased rooted.codeowners
  readmes := every_erased rooted.readmes
  statuses := every_drained rooted.statuses
  checkRuns := every_erased rooted.checkRuns
  webhooks := every_erased rooted.webhooks
  counters := every_erased rooted.counters
  jankuraiScores := every_erased rooted.jankuraiScores

theorem every_moveAll {σ : Type} {m : HashMap κ ν} {rangeOf : κ → σ} {old new : σ} {move : κ → κ}
    {keys : List κ} {update : ν → ν} {L : σ → Prop} (range : Range m rangeOf old new move keys)
    (different : new ≠ old) (every : m.Every fun key _ => L (rangeOf key)) :
    (m.moveAll move update keys).Every fun key _ =>
      rangeOf key = new ∨ (L (rangeOf key) ∧ rangeOf key ≠ old) := by
  intro key value found
  rcases range.lookup_some different found with lands | ⟨elsewhere, kept⟩
  · exact .inl lands
  · exact .inr ⟨every _ _ kept, elsewhere⟩

/-- Everything of a repository moves with it. -/
theorem State.RootedIn.rekeyed {L : Slug → Prop} (rooted : s.RootedIn L) {old new : Slug}
    (different : new ≠ old) (repo : Repository) :
    (s.rekeyed old new repo).RootedIn fun slug => slug = new ∨ (L slug ∧ slug ≠ old) where
  repoGrants := every_moveAll (rekeyGrants_range _ old new) different rooted.repoGrants
  labels := every_moveAll (rekeyTriples_range _ old new) different rooted.labels
  issues := every_moveAll (rekeyTriples_range _ old new) different rooted.issues
  issueComments := every_moveAll (rekeyTriples_range _ old new) different rooted.issueComments
  pulls := every_moveAll (rekeyTriples_range _ old new) different rooted.pulls
  reviews := every_moveAll (rekeyTriples_range _ old new) different rooted.reviews
  reviewComments := every_moveAll (rekeyTriples_range _ old new) different rooted.reviewComments
  branchProtections :=
    every_moveAll (rekeyTriples_range _ old new) different rooted.branchProtections
  codeowners := every_moveAll (rekeyPairs_range _ old new) different rooted.codeowners
  readmes := every_moveAll (rekeyPairs_range _ old new) different rooted.readmes
  statuses := every_moveAll (rekeyTriples_range _ old new) different rooted.statuses
  checkRuns := every_moveAll (rekeyPairs_range _ old new) different rooted.checkRuns
  webhooks := every_moveAll (rekeyPairs_range _ old new) different rooted.webhooks
  counters := every_moveAll (rekeyPairs_range _ old new) different rooted.counters
  jankuraiScores := every_moveAll (rekeyPairs_range _ old new) different rooted.jankuraiScores

theorem Shift.rooted (shift : Shift print s s') (rooted : s.Rooted) : s'.Rooted := by
  unfold State.Rooted
  cases shift with
  | created repo now free drawn named =>
    rw [State.ensureDefaultBranchProtection_eq]
    have lives (slug : Slug) (live : s.Live slug ∨ slug = repo.slug) :
        ∃ found, (s.repos.insert repo.slug repo).lookup slug = some found := by
      rw [lookup_insert_if]
      split
      · exact ⟨repo, rfl⟩
      · next elsewhere => exact live.resolve_right elsewhere
    have wider : s.RootedIn fun slug => s.Live slug ∨ slug = repo.slug := rooted.mono fun _ => .inl
    have own : s.Live repo.slug ∨ repo.slug = repo.slug := .inr rfl
    have rules := @every_rule_ensured (fun slug => s.Live slug ∨ slug = repo.slug)
      { s with
        counters := s.counters.insert repo.slug ⟨0, 0⟩
        repos := s.repos.insert repo.slug repo } repo now wider.branchProtections own
    refine @State.RootedIn.mono (fun slug => s.Live slug ∨ slug = repo.slug) _ _ ?_ lives
    exact { wider with
      counters := wider.counters.insert own
      branchProtections := rules }
  | @deleted slug repo found =>
    refine (rooted.withoutRepository slug repo.id).mono fun other kept => ?_
    obtain ⟨⟨stored, live⟩, elsewhere⟩ := kept
    exact ⟨stored, by rw [State.withoutRepository, lookup_erase_if, if_neg elsewhere, live]⟩
  | @relocated old new repo found free now aliases redirected transfers deployments =>
    have moved := rooted.rekeyed (ne_of_lookup found free) (movedRepository new now repo)
    have lives (slug : Slug) (kept : slug = new ∨ (s.Live slug ∧ slug ≠ old)) :
        (s.rekeyed old new (movedRepository new now repo)).Live slug := by
      unfold State.Live State.rekeyed
      rw [lookup_insert_if, lookup_erase_if]
      rcases kept with here | ⟨⟨stored, live⟩, elsewhere⟩
      · exact ⟨_, if_pos here⟩
      · split
        · exact ⟨_, rfl⟩
        · exact ⟨stored, live⟩
    exact { moved.mono lives with }

end Shift

section Sections

variable {s : State} {call : Call} {core core' : ForgeCore}

/-- A state the store takes has a repository row for every record. -/
theorem State.rooted_of_staged (staged : s.stageState = .ok ()) (keyed : s.WellKeyed) :
    s.Rooted := by
  have live (slug : Slug) (member : slug ∈ s.stagedSlugs) : s.Live slug :=
    State.stageState_eq_ok staged member
  have bucket {κ ν : Type} [DecidableEq κ] {m : HashMap κ (List ν)} {slugOf : ν → Slug}
      {slugOfKey : κ → Slug} {key : κ} {rows : List ν}
      (found : m.lookup key = some rows)
      (kept : rows ≠ [] ∧ ∀ row ∈ rows, slugOf row = slugOfKey key) :
      slugOfKey key ∈ m.values.flatten.map slugOf := by
    obtain ⟨row, rest, rfl⟩ := List.exists_cons_of_ne_nil kept.1
    refine List.mem_map.mpr ⟨row, List.mem_flatten.mpr ⟨_, mem_values.mpr ⟨key, found⟩, ?_⟩, ?_⟩
    · simp
    · exact kept.2 row (by simp)
  unfold State.stagedSlugs at live
  simp only [List.mem_append] at live
  constructor
  · intro key grant found
    have own := keyed.repoGrants _ _ found
    have member : key.2 ∈ s.repoGrants.values.map fun grant => (grant.owner, grant.repo) :=
      List.mem_map.mpr ⟨grant, mem_values.mpr ⟨key, found⟩, by rw [← own]; rfl⟩
    exact live _ (by simp only [member, true_or])
  · intro key label found
    have member : Scoped.slug key ∈ s.labels.keys.map fun key => (key.1, key.2.1) :=
      List.mem_map_of_mem (mem_keys_of_lookup found)
    exact live _ (by simp only [member, true_or, or_true])
  · intro key issue found
    have own := keyed.issues _ _ found
    have member : Scoped.slug key ∈ s.issues.values.map fun issue => (issue.owner, issue.repo) :=
      List.mem_map.mpr ⟨issue, mem_values.mpr ⟨key, found⟩, by rw [← own]; rfl⟩
    exact live _ (by simp only [member, true_or, or_true])
  · intro key rows found
    have member : Scoped.slug key ∈ s.issueComments.keys.map fun key => (key.1, key.2.1) :=
      List.mem_map_of_mem (mem_keys_of_lookup found)
    exact live _ (by simp only [member, true_or, or_true])
  · intro key pr found
    have own := (keyed.pulls _ _ found).1
    have member : Scoped.slug key ∈ s.pulls.values.map fun pr => (pr.owner, pr.repo) :=
      List.mem_map.mpr ⟨pr, mem_values.mpr ⟨key, found⟩, by rw [← own]; rfl⟩
    exact live _ (by simp only [member, true_or, or_true])
  · intro key rows found
    have own := keyed.reviews _ _ found
    have member : Scoped.slug key ∈
        s.reviews.values.flatten.map fun review => (review.owner, review.repo) :=
      bucket found ⟨own.1, fun row inside => by rw [← own.2 row inside]; rfl⟩
    exact live _ (by simp only [member, true_or, or_true])
  · intro key rows found
    have member : Scoped.slug key ∈ s.reviewComments.keys.map fun key => (key.1, key.2.1) :=
      List.mem_map_of_mem (mem_keys_of_lookup found)
    exact live _ (by simp only [member, true_or, or_true])
  · intro key rule found
    have member : Scoped.slug key ∈ s.branchProtections.keys.map fun key => (key.1, key.2.1) :=
      List.mem_map_of_mem (mem_keys_of_lookup found)
    exact live _ (by simp only [member, true_or, or_true])
  · intro slug contents found
    have member : slug ∈ s.codeowners.keys := mem_keys_of_lookup found
    exact live _ (by simp only [member, true_or, or_true])
  · intro slug markdown found
    have member : slug ∈ s.readmes.keys := mem_keys_of_lookup found
    exact live _ (by simp only [member, true_or, or_true])
  · intro key rows found
    have own := keyed.statuses _ _ found
    have member : Scoped.slug key ∈
        s.statuses.values.flatten.map fun status => (status.owner, status.repo) :=
      bucket found ⟨own.1, fun row inside => by rw [← own.2 row inside]; rfl⟩
    exact live _ (by simp only [member, true_or, or_true])
  · intro slug rows found
    have member : slug ∈ s.checkRuns.values.flatten.map fun run => (run.owner, run.repo) :=
      @bucket _ _ _ _ _ id _ _ found (keyed.checkRuns _ _ found)
    exact live _ (by simp only [member, true_or, or_true])
  · intro slug rows found
    have member : slug ∈ s.webhooks.values.flatten.map fun hook => (hook.owner, hook.repo) :=
      @bucket _ _ _ _ _ id _ _ found (keyed.webhooks _ _ found)
    exact live _ (by simp only [member, true_or, or_true])
  · intro slug counters found
    have member : slug ∈ s.counters.keys := mem_keys_of_lookup found
    exact live _ (by simp only [member, or_true])
  · intro slug rows found
    have member : slug ∈ s.jankuraiScores.values.flatten.map fun score => (score.owner, score.repo) :=
      @bucket _ _ _ _ _ id _ _ found (keyed.jankuraiScores _ _ found)
    exact live _ (by simp only [member, true_or, or_true])

end Sections

/-- A section that creates records without looking the repository up finds it there, or a store
    is attached to refuse what has no repository. -/
def Call.FindsLive (call : Call) (core : ForgeCore) : Prop :=
  call.Opens → core.storage.isSome = true ∨
    ∀ slug, call.touches core.state slug → core.state.Live slug

section Runs

variable {call : Call} {core core' : ForgeCore} {pool : Pool}

theorem Effect.rooted (effect : Effect call core core') (coherent : core.Coherent)
    (finds : call.FindsLive core) (rooted : core.state.Rooted) : core'.state.Rooted := by
  by_cases attached : core.storage.isSome = true
  · rcases effect.staged attached with staged | ⟨deployments, same⟩
    · exact State.rooted_of_staged staged (effect.coherent coherent).keyed
    · rw [same]
      exact { rooted with }
  · cases effect.moves with
    | touches writes =>
      refine Touches.rooted writes coherent.keyed (fun slug creates => ?_) rooted
      obtain ⟨opens, within⟩ := creates
      exact (finds opens).resolve_left attached slug within
    | shift may moved => exact moved.rooted rooted

theorem Ambient.rooted (ambient : Ambient core core') (rooted : core.state.Rooted) :
    core'.state.Rooted := by
  obtain ⟨users, accounts, bots, botRepoGrants, organizations, auth, same⟩ := ambient.state
  rw [same]
  exact { rooted with }

theorem Pool.ReachableWhen.rooted (reachable : pool.ReachableWhen Call.FindsLive) :
    pool.shared.state.Rooted := by
  refine reachable.invariant (I := fun core => core.state.Rooted) (fun core empty => ?_)
    (fun core core' rooted moved => moved.rooted rooted)
    fun call core core' reply coherent rooted finds _ effect => effect.rooted coherent finds rooted
  rw [empty]
  exact rooted_empty

end Runs

end Jeryu.Core
