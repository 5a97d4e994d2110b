import Jeryu.Core.Numbering

/-!
What a rename or a transfer does to the records of the repository: every one of them moves, with
its owner and name rewritten, and no other record changes.
-/

namespace Jeryu.Core

open KeyedMap HashMap LockProgram

/-- No repo-scoped record is of the slug. -/
structure State.VacantAt (s : State) (slug : Slug) : Prop where
  records : s.RootedIn (· ≠ slug)
  deliveries : ∀ delivery ∈ s.webhookDeliveries, delivery.slug ≠ slug

/-- The records of `old` are now those of `new`, under their new owner and name, bucket by bucket
    in the order they had; the records of any other repository are as they were. -/
structure MovesWhole (old new : Slug) (s s' : State) : Prop where
  repoGrants : MovedTo Prod.snd movedGrantKey
    (fun grant => { grant with owner := new.1, repo := new.2 }) old new s.repoGrants s'.repoGrants
  labels : MovedTo Scoped.slug movedKey id old new s.labels s'.labels
  issues : MovedTo Scoped.slug movedKey
    (fun issue => { issue with owner := new.1, repo := new.2 }) old new s.issues s'.issues
  issueComments : MovedTo Scoped.slug movedKey
    (fun rows => rows.map fun row => { row with owner := new.1, repo := new.2 }) old new
    s.issueComments s'.issueComments
  /-- A pull request whose source is the repository itself follows it. -/
  pulls : MovedTo Scoped.slug movedKey (movedPull old new) old new s.pulls s'.pulls
  reviews : MovedTo Scoped.slug movedKey
    (fun rows => rows.map fun row => { row with owner := new.1, repo := new.2 }) old new
    s.reviews s'.reviews
  reviewComments : MovedTo Scoped.slug movedKey
    (fun rows => rows.map fun row => { row with owner := new.1, repo := new.2 }) old new
    s.reviewComments s'.reviewComments
  branchProtections : MovedTo Scoped.slug movedKey
    (fun rule => { rule with owner := new.1, repo := new.2 }) old new
    s.branchProtections s'.branchProtections
  codeowners : MovedTo id (fun slug _ => slug) id old new s.codeowners s'.codeowners
  readmes : MovedTo id (fun slug _ => slug) id old new s.readmes s'.readmes
  statuses : MovedTo Scoped.slug movedKey
    (fun rows => rows.map fun row => { row with owner := new.1, repo := new.2 }) old new
    s.statuses s'.statuses
  checkRuns : MovedTo id (fun slug _ => slug)
    (fun rows => rows.map fun row => { row with owner := new.1, repo := new.2 }) old new
    s.checkRuns s'.checkRuns
  webhooks : MovedTo id (fun slug _ => slug)
    (fun rows => rows.map fun row => { row with owner := new.1, repo := new.2 }) old new
    s.webhooks s'.webhooks
  counters : MovedTo id (fun slug _ => slug) id old new s.counters s'.counters
  jankuraiScores : MovedTo id (fun slug _ => slug)
    (fun rows => rows.map fun row => { row with owner := new.1, repo := new.2 }) old new
    s.jankuraiScores s'.jankuraiScores
  webhookDeliveries : s'.webhookDeliveries = s.webhookDeliveries.map (movedDelivery old new)
  /-- No key is of the old slug, and no record names a slug it is not under. -/
  gone : s'.VacantAt old
  keyed : s'.WellKeyed

/-- Every map of records holds what it held. -/
structure Restored (s s' : State) : Prop where
  repoGrants : ∀ key, s'.repoGrants.lookup key = s.repoGrants.lookup key
  labels : ∀ key, s'.labels.lookup key = s.labels.lookup key
  issues : ∀ key, s'.issues.lookup key = s.issues.lookup key
  issueComments : ∀ key, s'.issueComments.lookup key = s.issueComments.lookup key
  pulls : ∀ key, s'.pulls.lookup key = s.pulls.lookup key
  reviews : ∀ key, s'.reviews.lookup key = s.reviews.lookup key
  reviewComments : ∀ key, s'.reviewComments.lookup key = s.reviewComments.lookup key
  branchProtections : ∀ key, s'.branchProtections.lookup key = s.branchProtections.lookup key
  codeowners : ∀ slug, s'.codeowners.lookup slug = s.codeowners.lookup slug
  readmes : ∀ slug, s'.readmes.lookup slug = s.readmes.lookup slug
  statuses : ∀ key, s'.statuses.lookup key = s.statuses.lookup key
  checkRuns : ∀ slug, s'.checkRuns.lookup slug = s.checkRuns.lookup slug
  webhooks : ∀ slug, s'.webhooks.lookup slug = s.webhooks.lookup slug
  counters : ∀ slug, s'.counters.lookup slug = s.counters.lookup slug
  jankuraiScores : ∀ slug, s'.jankuraiScores.lookup slug = s.jankuraiScores.lookup slug
  webhookDeliveries : s'.webhookDeliveries = s.webhookDeliveries
  repos : ∀ slug, (s'.repos.lookup slug).map (fun repo => { repo with updatedAt := 0 }) =
    (s.repos.lookup slug).map fun repo => { repo with updatedAt := 0 }

section There

variable {s : State} {old new : Slug} {κ ν : Type} [DecidableEq κ]

theorem every_free {m : HashMap κ ν} {slugOf : κ → Slug} {slug : Slug}
    (every : m.Every fun key _ => slugOf key ≠ slug) :
    ∀ key, slugOf key = slug → m.lookup key = none := by
  intro key here
  cases found : m.lookup key with
  | none => rfl
  | some value => exact absurd here (every key value found)

theorem movedDelivery_slug (different : new ≠ old) (delivery : WebhookDelivery) :
    (movedDelivery old new delivery).slug ≠ old := by
  unfold movedDelivery
  split
  · exact different
  · next elsewhere =>
    intro here
    exact elsewhere (Prod.ext_iff.mp here)

theorem State.VacantAt.movesWhole (vacant : s.VacantAt new) (keyed : s.WellKeyed)
    (different : new ≠ old) (repo : Repository) (own : repo.slug = new ∧ repo.fullName = slugText new) :
    MovesWhole old new s (s.rekeyed old new repo) where
  repoGrants := rekeyGrants_movedTo different (every_free vacant.records.repoGrants)
  labels := rekeyTriples_movedTo different (every_free vacant.records.labels)
  issues := rekeyTriples_movedTo different (every_free vacant.records.issues)
  issueComments := rekeyTriples_movedTo different (every_free vacant.records.issueComments)
  pulls := rekeyTriples_movedTo different (every_free vacant.records.pulls)
  reviews := rekeyTriples_movedTo different (every_free vacant.records.reviews)
  reviewComments := rekeyTriples_movedTo different (every_free vacant.records.reviewComments)
  branchProtections := rekeyTriples_movedTo different (every_free vacant.records.branchProtections)
  codeowners := rekeyPairs_movedTo different (every_free vacant.records.codeowners)
  readmes := rekeyPairs_movedTo different (every_free vacant.records.readmes)
  statuses := rekeyTriples_movedTo different (every_free vacant.records.statuses)
  checkRuns := rekeyPairs_movedTo different (every_free vacant.records.checkRuns)
  webhooks := rekeyPairs_movedTo different (every_free vacant.records.webhooks)
  counters := rekeyPairs_movedTo different (every_free vacant.records.counters)
  jankuraiScores := rekeyPairs_movedTo different (every_free vacant.records.jankuraiScores)
  webhookDeliveries := rfl
  gone := by
    refine ⟨(vacant.records.rekeyed different repo).mono fun slug kept => ?_, ?_⟩
    · rcases kept with rfl | ⟨-, elsewhere⟩
      · exact different
      · exact elsewhere
    · intro delivery member
      obtain ⟨before, -, rfl⟩ := List.mem_map.mp member
      exact movedDelivery_slug different before
  keyed := keyed.rekeyed different own

end There

section Back

variable {s s' s'' : State} {old new : Slug}

theorem map_map_undo {α : Type} {f g : α → α} {rows : List α} (undone : ∀ row ∈ rows, g (f row) = row) :
    (rows.map f).map g = rows := by
  rw [List.map_map]
  exact (List.map_congr_left undone).trans (List.map_id rows)

theorem movedPull_back {pr : PullRequest} (own : pr.owner = old.1 ∧ pr.repo = old.2)
    (foreign : pr.sourceRepository ≠ slugText new) : movedPull new old (movedPull old new pr) = pr := by
  obtain ⟨owner, repo⟩ := own
  have source : (movedPull new old (movedPull old new pr)).sourceRepository = pr.sourceRepository := by
    unfold movedPull
    dsimp only
    by_cases native : pr.sourceRepository = slugText old
    · rw [if_pos native, if_pos rfl, native]
    · rw [if_neg native, if_neg foreign]
  cases pr
  simp only [movedPull] at source owner repo ⊢
  subst owner
  subst repo
  rw [source]

theorem movedDelivery_back {delivery : WebhookDelivery} (elsewhere : delivery.slug ≠ new) :
    movedDelivery new old (movedDelivery old new delivery) = delivery := by
  by_cases here : delivery.owner = old.1 ∧ delivery.repo = old.2
  · have moved : movedDelivery old new delivery = { delivery with owner := new.1, repo := new.2 } :=
      if_pos here
    rw [moved]
    refine (if_pos ⟨rfl, rfl⟩).trans ?_
    cases delivery
    simp only at here ⊢
    rw [here.1, here.2]
  · have kept : movedDelivery old new delivery = delivery := if_neg here
    rw [kept]
    exact if_neg fun there => elsewhere (Prod.ext there.1 there.2)

/-- Moved back, every record is what it was. -/
theorem MovesWhole.back (there : MovesWhole old new s s') (back : MovesWhole new old s' s'')
    (vacant : s.VacantAt new) (keyed : s.WellKeyed)
    (foreign : ∀ key pr, s.pulls.lookup key = some pr → Scoped.slug key = old →
      pr.sourceRepository ≠ slugText new)
    (repos : ∀ slug, (s''.repos.lookup slug).map (fun repo => { repo with updatedAt := 0 }) =
      (s.repos.lookup slug).map fun repo => { repo with updatedAt := 0 }) : Restored s s'' where
  repoGrants := there.repoGrants.back back.repoGrants grant_placing
    (every_free vacant.records.repoGrants) fun key grant found here => by
      have own := keyed.repoGrants key grant found
      subst own
      subst here
      rfl
  labels := there.labels.back back.labels scoped_placing (every_free vacant.records.labels)
    fun _ _ _ _ => rfl
  issues := there.issues.back back.issues scoped_placing (every_free vacant.records.issues)
    fun key issue found here => by
      have own := keyed.issues key issue found
      subst own
      subst here
      rfl
  issueComments := there.issueComments.back back.issueComments scoped_placing
    (every_free vacant.records.issueComments) fun key rows found here =>
      map_map_undo fun row member => by
        have own := keyed.issueComments key rows found row member
        subst own
        subst here
        rfl
  pulls := there.pulls.back back.pulls scoped_placing (every_free vacant.records.pulls)
    fun key pr found here => by
      have own := (keyed.pulls key pr found).1
      subst own
      exact movedPull_back (Prod.ext_iff.mp here) (foreign _ pr found here)
  reviews := there.reviews.back back.reviews scoped_placing (every_free vacant.records.reviews)
    fun key rows found here => map_map_undo fun row member => by
      have own := (keyed.reviews key rows found).2 row member
      subst own
      subst here
      rfl
  reviewComments := there.reviewComments.back back.reviewComments scoped_placing
    (every_free vacant.records.reviewComments) fun key rows found here =>
      map_map_undo fun row member => by
        have own := keyed.reviewComments key rows found row member
        subst own
        subst here
        rfl
  branchProtections := there.branchProtections.back back.branchProtections scoped_placing
    (every_free vacant.records.branchProtections) fun key rule found here => by
      have own := keyed.branchProtections key rule found
      subst own
      subst here
      rfl
  codeowners := there.codeowners.back back.codeowners slug_placing
    (every_free vacant.records.codeowners) fun _ _ _ _ => rfl
  readmes := there.readmes.back back.readmes slug_placing (every_free vacant.records.readmes)
    fun _ _ _ _ => rfl
  statuses := there.statuses.back back.statuses scoped_placing
    (every_free vacant.records.statuses) fun key rows found here => map_map_undo fun row member => by
      have own := (keyed.statuses key rows found).2 row member
      subst own
      subst here
      rfl
  checkRuns := there.checkRuns.back back.checkRuns slug_placing
    (every_free vacant.records.checkRuns) fun slug rows found here =>
      map_map_undo fun row member => by
        have own := (keyed.checkRuns slug rows found).2 row member
        subst own
        subst here
        rfl
  webhooks := there.webhooks.back back.webhooks slug_placing (every_free vacant.records.webhooks)
    fun slug rows found here => map_map_undo fun row member => by
      have own := (keyed.webhooks slug rows found).2 row member
      subst own
      subst here
      rfl
  counters := there.counters.back back.counters slug_placing (every_free vacant.records.counters)
    fun _ _ _ _ => rfl
  jankuraiScores := there.jankuraiScores.back back.jankuraiScores slug_placing
    (every_free vacant.records.jankuraiScores) fun slug rows found here =>
      map_map_undo fun row member => by
        have own := (keyed.jankuraiScores slug rows found).2 row member
        subst own
        subst here
        rfl
  webhookDeliveries := by
    rw [back.webhookDeliveries, there.webhookDeliveries]
    exact map_map_undo fun delivery member => movedDelivery_back (vacant.deliveries delivery member)
  repos := repos

end Back

/-- The section moved a repository from `old` to `new`. -/
def Relocates (old new : Slug) (core core' : ForgeCore) : Prop :=
  ∃ repo, core.state.repos.lookup old = some repo ∧ core.state.repos.lookup new = none ∧
    ∃ repositoryAliases repositoryTransfers deployments, core'.state =
      { core.state.rekeyed old new (movedRepository new core.now repo) with
        repositoryAliases, repositoryTransfers, deployments }

/-- Where a call moves the repository it is about. -/
def Call.MovesFrom (s : State) (old new : Slug) : Call → Prop
  | .renameRepository _ owner repo newOwner newName => old = (owner, repo) ∧ new = (newOwner, newName)
  | .commitRepositoryTransfer transactionId _ => ∃ key journal,
    s.transferForId transactionId = some (key, journal) ∧ old = journal.source ∧
      new = journal.destination
  | _ => False

section Sections

variable {call : Call} {core core' : ForgeCore} {old new : Slug}

theorem writeRenameLocked_relocates (old new : Slug) (core : ForgeCore) :
    ((writeRenameLocked old new core).leaves core).state = core.state ∨
      Relocates old new core ((writeRenameLocked old new core).leaves core) := by
  have commits : (writeRenameLocked old new core).Commits fun _ next _ =>
      ∃ repo, core.state.repos.lookup old = some repo ∧ core.state.repos.lookup new = none ∧
        ∃ repositoryAliases repositoryTransfers deployments, next =
          { core.state.rekeyed old new (movedRepository new core.now repo) with
            repositoryAliases, repositoryTransfers, deployments } := by
    unfold writeRenameLocked
    dsimp only
    split
    · exact True.intro
    · refine Outcome.commits_ite (fun _ => True.intro) fun _ => ?_
      refine Outcome.commits_ite (fun _ => True.intro) fun _ => ?_
      refine Outcome.commits_ite (fun _ => True.intro) fun _ => ?_
      refine Outcome.commits_ite (fun _ => True.intro) fun _ => ?_
      split
      · exact True.intro
      · next rekeyed moved =>
        split
        · exact True.intro
        · obtain ⟨repo, found, free, -, -, rfl⟩ := rekeyRepository_ok moved
          exact ⟨repo, found, free, _, _, _, rfl⟩
  rcases Outcome.leaves_state commits with same | ⟨draws, next, value, known, moved, -⟩
  · exact .inl same
  · refine .inr ?_
    unfold Relocates
    rw [moved]
    exact known

theorem commitTransferLocked_relocates {transactionId : Uuid} {receipt : Value} {key : String}
    {journal : RepositoryTransferJournal}
    (found : core.state.transferForId transactionId = some (key, journal)) :
    ((commitTransferLocked transactionId receipt core).leaves core).state = core.state ∨
      Relocates journal.source journal.destination core
        ((commitTransferLocked transactionId receipt core).leaves core) := by
  have commits : (commitTransferLocked transactionId receipt core).Commits fun _ next _ =>
      ∃ repo, core.state.repos.lookup journal.source = some repo ∧
        core.state.repos.lookup journal.destination = none ∧
        ∃ repositoryAliases repositoryTransfers deployments, next =
          { core.state.rekeyed journal.source journal.destination
              (movedRepository journal.destination core.now repo) with
            repositoryAliases, repositoryTransfers, deployments } := by
    unfold commitTransferLocked
    rw [found]
    dsimp only
    split
    · exact True.intro
    · exact True.intro
    · split
      · exact True.intro
      · next rekeyed moved =>
        obtain ⟨repo, source, vacant, -, -, rfl⟩ := rekeyRepository_ok moved
        exact ⟨repo, source, vacant, _, _, _, rfl⟩
  rcases Outcome.leaves_state commits with same | ⟨draws, next, value, known, moved, -⟩
  · exact .inl same
  · refine .inr ?_
    unfold Relocates
    rw [moved]
    exact known

/-- A commit leaves the state, or moves the repository of the journal it found. -/
theorem commitTransferLocked_moved (transactionId : Uuid) (receipt : Value) (core : ForgeCore) :
    ((commitTransferLocked transactionId receipt core).leaves core).state = core.state ∨
      ∃ key journal, core.state.transferForId transactionId = some (key, journal) ∧
        Relocates journal.source journal.destination core
          ((commitTransferLocked transactionId receipt core).leaves core) := by
  cases found : core.state.transferForId transactionId with
  | none =>
    have refused : (commitTransferLocked transactionId receipt core).Commits fun _ _ _ => False := by
      unfold commitTransferLocked
      rw [found]
      exact True.intro
    rcases Outcome.leaves_state refused with same | ⟨_, _, _, never, -⟩
    · exact .inl same
    · exact never.elim
  | some entry =>
    rcases commitTransferLocked_relocates found with same | relocates
    · exact .inl same
    · exact .inr ⟨entry.1, entry.2, rfl, relocates⟩

/-- A section of a rename or of a commit that changes the state moves the repository. -/
theorem section_relocates {reply : Option call.Reply} (sect : Section call core core' reply)
    (asked : call.MovesFrom core.state old new) (changed : core'.state ≠ core.state) :
    Relocates old new core core' := by
  cases call with
  | renameRepository actor owner repo newOwner newName =>
    obtain ⟨rfl, rfl⟩ := asked
    cases sect with
    | audit entry audited => exact absurd rfl changed
    | refused audited => exact absurd rfl changed
    | profile profiled => cases profiled
    | renameRepository => exact (writeRenameLocked_relocates _ _ core).resolve_left changed
  | commitRepositoryTransfer transactionId receipt =>
    obtain ⟨key, journal, found, rfl, rfl⟩ := asked
    cases sect with
    | audit entry audited => cases audited
    | refused audited => cases audited
    | profile profiled => cases profiled
    | commitRepositoryTransfer => exact (commitTransferLocked_relocates found).resolve_left changed
  | _ => exact asked.elim

/-- A rename that finds nothing to move, or that leaves nothing where it moves to, is at a
    receipt. -/
theorem rename_idle {pool pool' : Pool} (reachable : pool.Reachable) {i : Nat}
    {actor owner repo newOwner newName : String} {reply : Option (Except Failure Repository)}
    (writes : pool.Writes i (.renameRepository actor owner repo newOwner newName) reply pool')
    (still : pool.shared.state.repos.lookup (owner, repo) = none ∨
      pool'.shared.state.repos.lookup (newOwner, newName) = none) :
    pool'.shared.state = pool.shared.state := by
  by_contra changed
  obtain ⟨entry, found, -, aliases, transfers, deployments, same⟩ :=
    section_relocates (reachable.writes writes) ⟨rfl, rfl⟩ changed
  rcases still with absent | absent
  · cases absent.symm.trans found
  · rw [same] at absent
    have taken := lookup_insert_self (pool.shared.state.repos.erase (owner, repo)) (newOwner, newName)
      (movedRepository (newOwner, newName) pool.shared.now entry)
    cases absent.symm.trans taken

theorem Relocates.movesWhole (relocates : Relocates old new core core') (coherent : core.Coherent)
    (vacant : core.state.VacantAt new) : MovesWhole old new core.state core'.state := by
  obtain ⟨repo, found, free, aliases, transfers, deployments, same⟩ := relocates
  have whole := vacant.movesWhole coherent.keyed (ne_of_lookup found free)
    (movedRepository new core.now repo) ⟨rfl, rfl⟩
  rw [same]
  exact { whole with
    gone := ⟨{ whole.gone.records with }, whole.gone.deliveries⟩
    keyed := { whole.keyed with } }

/-- The repository itself, moved there and back. -/
theorem Relocates.repos_back {core₁ core₂ : ForgeCore} (there : Relocates old new core core')
    (same : core₁.state = core'.state) (back : Relocates new old core₁ core₂)
    (keyed : core.state.WellKeyed) (slug : Slug) :
    (core₂.state.repos.lookup slug).map (fun repo => { repo with updatedAt := 0 }) =
      (core.state.repos.lookup slug).map fun repo => { repo with updatedAt := 0 } := by
  obtain ⟨repo, found, free, _, _, _, moved⟩ := there
  obtain ⟨repo', found', -, _, _, _, moved'⟩ := back
  have different : new ≠ old := ne_of_lookup found free
  have repos : core'.state.repos = (core.state.repos.erase old).insert new
    (movedRepository new core.now repo) := by rw [moved]; rfl
  have repos' : core₂.state.repos = (core'.state.repos.erase new).insert old
    (movedRepository old core₁.now repo') := by rw [moved', same]; rfl
  rw [same, repos, lookup_insert_self] at found'
  cases found'
  obtain ⟨own, fullName⟩ := keyed.repos _ _ found
  obtain ⟨owner, name⟩ := Prod.ext_iff.mp own
  rw [repos', lookup_insert_if]
  split
  · next here =>
    subst here
    rw [found]
    cases repo
    simp only [Repository.slug, movedRepository, Option.map_some] at owner name fullName ⊢
    rw [owner, name, fullName]
  · next notOld =>
    rw [lookup_erase_if]
    split
    · next here =>
      subst here
      rw [free]
    · next notNew => rw [repos, lookup_insert_if, if_neg notNew, lookup_erase_if, if_neg notOld]

end Sections

/-- What a move from `old` to `new` did, and what a rename back would. -/
structure MoveKeeps (pool pool' : Pool) (old new : Slug) : Prop where
  whole : MovesWhole old new pool.shared.state pool'.shared.state
  /-- A rename back that finds the records as the move left them restores them, if no pull
      request named the new slug as its source before. -/
  restores : ∀ later : Pool, later.Reachable → later.shared.state = pool'.shared.state →
    ∀ (i : Nat) (actor : String) (reply : Option (Except Failure Repository)) (last : Pool),
      later.Writes i (.renameRepository actor new.1 new.2 old.1 old.2) reply last →
      last.shared.state ≠ later.shared.state →
      (∀ key pr, pool.shared.state.pulls.lookup key = some pr → Scoped.slug key = old →
        pr.sourceRepository ≠ slugText new) →
      Restored pool.shared.state last.shared.state

theorem move_keeps {pool pool' : Pool} (reachable : pool.Reachable) {i : Nat} {call : Call}
    {reply : Option call.Reply} {old new : Slug} (writes : pool.Writes i call reply pool')
    (asked : call.MovesFrom pool.shared.state old new)
    (changed : pool'.shared.state ≠ pool.shared.state) (vacant : pool.shared.state.VacantAt new) :
    MoveKeeps pool pool' old new := by
  have there := section_relocates (reachable.writes writes) asked changed
  have whole := there.movesWhole reachable.coherent vacant
  refine ⟨whole, fun later still same j actor reply' last writes' changed' foreign => ?_⟩
  have back : Relocates new old later.shared last.shared :=
    section_relocates (still.writes writes') ⟨rfl, rfl⟩ changed'
  have restored := back.movesWhole still.coherent (same ▸ whole.gone)
  rw [same] at restored
  exact whole.back restored vacant reachable.coherent.keyed foreign
    (there.repos_back same back reachable.coherent.keyed)

/-- Where every record has its repository, a free slug has no records. -/
theorem State.Rooted.vacant {s : State} (rooted : s.Rooted) {slug : Slug}
    (free : s.repos.lookup slug = none) : s.RootedIn (· ≠ slug) := by
  refine rooted.mono fun other live same => ?_
  obtain ⟨repo, found⟩ := live
  rw [same, free] at found
  cases found

section Demo

/-- A pull request that names its source, and a rename about to take the write lock. -/
def renameAtLock (source : String) : List (Turn Call) :=
  [.alone .newDemo,
    .alone (.createPullRequest "acme" "demo" "alice"
      { title := "Add a parser", body := none, head := "feature", base := "main"
        headSha := some Call.demoHead, baseSha := some Call.demoBase
        sourceRepository := some source, draft := false, commits := []
        changedFiles := ["src/parser.rs"] }),
    .enter (.renameRepository "root" "acme" "demo" "acme" "demo2"), .advance 2, .advance 2]

theorem renameAtLock_vacant (source : String)
    (free : (ForgeCore.durable.played (renameAtLock source)).shared.state.repos.lookup
      ("acme", "demo2") = none)
    (none : (ForgeCore.durable.played (renameAtLock source)).shared.state.webhookDeliveries = []) :
    (ForgeCore.durable.played (renameAtLock source)).shared.state.VacantAt ("acme", "demo2") := by
  have rooted : (ForgeCore.durable.played (renameAtLock source)).ReachableWhen Call.FindsLive :=
    stored_findsLive rfl (by rfl) rfl
  refine ⟨rooted.rooted.vacant free, ?_⟩
  rw [none]
  exact fun _ member => nomatch member

theorem move_keeps_demo :
    MoveKeeps (ForgeCore.durable.played (renameAtLock "acme/demo"))
      ((ForgeCore.durable.played (renameAtLock "acme/demo")).turn forge (.advance 2))
      ("acme", "demo") ("acme", "demo2") := by
  have reachable : (ForgeCore.durable.played (renameAtLock "acme/demo")).Reachable :=
    played_any rfl (by rfl)
  obtain ⟨reply, writes⟩ : ∃ reply, (ForgeCore.durable.played (renameAtLock "acme/demo")).Writes 2
      (.renameRepository "root" "acme" "demo" "acme" "demo2") reply
      ((ForgeCore.durable.played (renameAtLock "acme/demo")).turn forge (.advance 2)) :=
    Config.turn_writes rfl (by decide +kernel)
  have free : (ForgeCore.durable.played (renameAtLock "acme/demo")).shared.state.repos.lookup
      ("acme", "demo2") = none := by decide +kernel
  have taken : (((ForgeCore.durable.played (renameAtLock "acme/demo")).turn forge
      (.advance 2)).shared.state.repos.lookup ("acme", "demo2")).isSome = true := by decide +kernel
  refine move_keeps reachable writes ⟨rfl, rfl⟩ (fun same => ?_)
    (renameAtLock_vacant _ free (by rfl))
  rw [same, free] at taken
  cases taken

def renameBack : Call := .renameRepository "root" "acme" "demo2" "acme" "demo"

/-- The rename done and its receipt written, and one back about to take the write lock. -/
def renameBackAtLock (n : Nat) : Pool :=
  (ForgeCore.durable.played (renameAtLock "acme/demo2")).play forge
    ([.advance 2, .advance 2, .enter renameBack, .advance 3, .advance 3, .advance 3].take n)

theorem renameBackAtLock_reachable (n : Nat) : (renameBackAtLock n).Reachable := by
  have before : (ForgeCore.durable.played (renameAtLock "acme/demo2")).Reachable :=
    played_any rfl (by rfl)
  refine before.run (play_run (plays_of_plain ?_ fun _ _ => True.intro))
  rw [List.all_eq_true]
  intro turn member
  have inside := List.mem_of_mem_take member
  simp only [List.mem_cons, List.not_mem_nil, or_false] at inside
  rcases inside with rfl | rfl | rfl | rfl | rfl | rfl <;> rfl

theorem renameBackAtLock_state :
    (renameBackAtLock 5).shared.state = (renameBackAtLock 1).shared.state := by
  obtain ⟨_, closes⟩ : ∃ reply, (renameBackAtLock 1).Writes 2
      (.renameRepository "root" "acme" "demo" "acme" "demo2") reply
      ((renameBackAtLock 1).turn forge (.advance 2)) := Config.turn_writes rfl (by decide +kernel)
  obtain ⟨_, requests⟩ : ∃ reply, (renameBackAtLock 4).Writes 3 renameBack reply
      ((renameBackAtLock 4).turn forge (.advance 3)) := Config.turn_writes rfl (by decide +kernel)
  have closed : (renameBackAtLock 2).shared.state = (renameBackAtLock 1).shared.state :=
    rename_idle (renameBackAtLock_reachable 1) closes (.inl (by decide +kernel))
  have requested : (renameBackAtLock 5).shared.state = (renameBackAtLock 4).shared.state :=
    rename_idle (renameBackAtLock_reachable 4) requests (.inr (by decide +kernel))
  have looked : (renameBackAtLock 4).shared = (renameBackAtLock 3).shared :=
    @Config.turn_idle _ _ _ forge (renameBackAtLock 3) 3 renameBack _ rfl (by decide +kernel)
  have entered : (renameBackAtLock 3).shared = (renameBackAtLock 2).shared := rfl
  rw [requested, looked, entered, closed]

/-- Which of the two slugs is taken before and after each rename, and where the pull request says
    it comes from. -/
theorem renameBackAtLock_slugs :
    (renameBackAtLock 0).shared.state.repos.lookup ("acme", "demo2") = none ∧
      ((renameBackAtLock 1).shared.state.repos.lookup ("acme", "demo2")).isSome = true ∧
      (renameBackAtLock 5).shared.state.repos.lookup ("acme", "demo") = none ∧
      ((renameBackAtLock 6).shared.state.repos.lookup ("acme", "demo")).isSome = true ∧
      ((renameBackAtLock 0).shared.state.pulls.lookup ("acme", "demo", 1)).map
        PullRequest.sourceRepository = some "acme/demo2" ∧
      ((renameBackAtLock 6).shared.state.pulls.lookup ("acme", "demo", 1)).map
        PullRequest.sourceRepository = some "acme/demo" := by decide +kernel

theorem renameBackAtLock_vacant :
    (renameBackAtLock 0).shared.state.VacantAt ("acme", "demo2") := by
  have same : renameBackAtLock 0 = ForgeCore.durable.played (renameAtLock "acme/demo2") := rfl
  have free := renameBackAtLock_slugs.1
  rw [same] at free ⊢
  exact renameAtLock_vacant _ free (by rfl)

theorem moved_of_taken {s s' : State} {slug : Slug} (free : s.repos.lookup slug = none)
    (taken : (s'.repos.lookup slug).isSome = true) : s' ≠ s := by
  rintro rfl
  rw [free] at taken
  cases taken

/-- A pull request from `acme/demo2` is taken for one of the repository's own once the repository
    has been called that. -/
theorem not_move_restores :
    ¬∀ (pool pool' later last : Pool) (i j : Nat) (call : Call) (reply : Option call.Reply)
      (actor : String) (reply' : Option (Except Failure Repository)) (old new : Slug),
      pool.Reachable → pool.Writes i call reply pool' → call.MovesFrom pool.shared.state old new →
      pool'.shared.state ≠ pool.shared.state → pool.shared.state.VacantAt new → later.Reachable →
      later.shared.state = pool'.shared.state →
      later.Writes j (.renameRepository actor new.1 new.2 old.1 old.2) reply' last →
      last.shared.state ≠ later.shared.state → Restored pool.shared.state last.shared.state := by
  intro restores
  obtain ⟨reply, writes⟩ : ∃ reply, (renameBackAtLock 0).Writes 2
      (.renameRepository "root" "acme" "demo" "acme" "demo2") reply
      ((renameBackAtLock 0).turn forge (.advance 2)) := Config.turn_writes rfl (by decide +kernel)
  obtain ⟨reply', writes'⟩ : ∃ reply, (renameBackAtLock 5).Writes 3 renameBack reply
      ((renameBackAtLock 5).turn forge (.advance 3)) := Config.turn_writes rfl (by decide +kernel)
  obtain ⟨free, taken, freed, retaken, source, source'⟩ := renameBackAtLock_slugs
  have restored := restores (renameBackAtLock 0) (renameBackAtLock 1) (renameBackAtLock 5)
    (renameBackAtLock 6) 2 3 (.renameRepository "root" "acme" "demo" "acme" "demo2") reply
    "root" reply' ("acme", "demo") ("acme", "demo2") (renameBackAtLock_reachable 0) writes ⟨rfl, rfl⟩
    (moved_of_taken free taken) renameBackAtLock_vacant
    (renameBackAtLock_reachable 5) renameBackAtLock_state writes'
    (moved_of_taken freed retaken)
  rw [restored.pulls] at source'
  exact absurd (source.symm.trans source') (by decide)

end Demo

end Jeryu.Core
