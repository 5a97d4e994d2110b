import Jeryu.Core.PrivilegedActs
import Jeryu.Core.Transfers

/-!
A deployment carries the owner and name of its repository: renames and restarts refresh them, and a
transfer does not.
-/

namespace Jeryu.Core

open KeyedMap HashMap LockProgram Relation

/-- Every deployment of a repository that is there names it as it is named. -/
def State.SlugsCurrent (s : State) : Prop :=
  s.deployments.Every fun _ deployment => s.repos.Every fun _ repo =>
    repo.id = deployment.repositoryId → deployment.owner = repo.owner ∧ deployment.repo = repo.name

/-- Every deployment is of a repository whose identifier is drawn. -/
def State.DeploymentsDrawn (s : State) (uuids : Nat) : Prop :=
  s.deployments.Every fun _ deployment => deployment.repositoryId < uuids

/-- Every repository was there under its name, or its identifier is not below `uuids`. -/
def ReposFrom (s s' : State) (uuids : Nat) : Prop :=
  s'.repos.Every fun slug repo => uuids ≤ repo.id ∨ ∃ old, s.repos.lookup slug = some old ∧
    old.id = repo.id ∧ old.owner = repo.owner ∧ old.name = repo.name

section Frames

variable {print : Footprint} {s s' s'' : State} {uuids uuids' : Nat}

theorem reposFrom_same (same : s'.repos = s.repos) : ReposFrom s s' uuids := by
  intro slug repo found
  rw [same] at found
  exact .inr ⟨repo, found, rfl, rfl, rfl⟩

theorem ReposFrom.trans (first : ReposFrom s s' uuids) (second : ReposFrom s' s'' uuids) :
    ReposFrom s s'' uuids := by
  intro slug repo found
  rcases second slug repo found with new | ⟨middle, known, id, owner, name⟩
  · exact .inl new
  · rcases first slug middle known with new | ⟨old, stored, id', owner', name'⟩
    · exact .inl (id ▸ new)
    · exact .inr ⟨old, stored, id'.trans id, owner'.trans owner, name'.trans name⟩

theorem reposFrom_insert {slug : Slug} {entry updated : Repository}
    (found : s.repos.lookup slug = some entry) (id : updated.id = entry.id)
    (owner : updated.owner = entry.owner) (name : updated.name = entry.name)
    (repos : s'.repos = s.repos.insert slug updated) : ReposFrom s s' uuids := by
  intro other repo there
  rw [repos, lookup_insert_if] at there
  split at there
  · next here =>
    cases there
    exact .inr ⟨entry, here ▸ found, id.symm, owner.symm, name.symm⟩
  · exact .inr ⟨repo, there, rfl, rfl, rfl⟩

theorem Touch.reposFrom (touch : Touch print s s') : ReposFrom s s' uuids := by
  cases touch with
  | @repositoryEdited slug entry found family archived updatedAt pushedAt =>
    let updated : Repository := { entry with family, archived, updatedAt, pushedAt }
    have id : updated.id = entry.id := rfl
    exact reposFrom_insert found id rfl rfl rfl
  | defaultBranchSet found within branch now edited =>
    rw [State.ensureDefaultBranchProtection_eq]
    exact reposFrom_insert found (by rw [edited]) (by rw [edited]) (by rw [edited]) rfl
  | optOutSet found within optOut now edited =>
    rw [State.withOptOut_eq]
    exact reposFrom_insert found (by rw [edited]) (by rw [edited]) (by rw [edited]) rfl
  | @issueOpened numbered issue may within next =>
    have counted : numbered = (s.nextRecordNumber issue.owner issue.repo).2 := by rw [next]
    subst counted
    exact reposFrom_same rfl
  | _ => exact reposFrom_same rfl

theorem Touch.deployments (touch : Touch print s s') (still : ¬print.deploys) :
    s'.deployments = s.deployments := by
  cases touch with
  | defaultBranchSet => rw [State.ensureDefaultBranchProtection_eq]
  | optOutSet => rw [State.withOptOut_eq]
  | @issueOpened numbered issue may within next =>
    have counted : numbered = (s.nextRecordNumber issue.owner issue.repo).2 := by rw [next]
    subst counted
    rfl
  | deployed may => exact absurd may still
  | _ => rfl

/-- A call that neither deploys nor moves a repository. -/
theorem Moves.frames (moves : Moves print s s') (still : ¬print.deploys) (settled : ¬print.shifts) :
    s'.deployments = s.deployments ∧ ReposFrom s s' uuids := by
  cases moves with
  | touches writes =>
    induction writes with
    | refl => exact ⟨rfl, reposFrom_same rfl⟩
    | tail _ touch ih =>
      obtain ⟨same, from_⟩ := ih
      exact ⟨(touch.deployments still).trans same, from_.trans touch.reposFrom⟩
  | shift may => exact absurd may settled

/-- What is current stays so where deployments and names are left alone. -/
theorem State.SlugsCurrent.frame (current : s.SlugsCurrent) (drawn : s.DeploymentsDrawn uuids)
    (same : s'.deployments = s.deployments) (repos : ReposFrom s s' uuids) : s'.SlugsCurrent := by
  intro id deployment stored slug repo found own
  rw [same] at stored
  have old : repo.id < uuids := own ▸ drawn id deployment stored
  rcases repos slug repo found with new | ⟨entry, known, ids, owners, names⟩
  · exact absurd new (Nat.not_le.mpr old)
  · have before := current id deployment stored slug entry known (ids.trans own)
    exact ⟨before.1.trans owners, before.2.trans names⟩

theorem State.DeploymentsDrawn.frame (drawn : s.DeploymentsDrawn uuids)
    (same : s'.deployments = s.deployments) (more : uuids ≤ uuids') : s'.DeploymentsDrawn uuids' := by
  unfold State.DeploymentsDrawn
  rw [same]
  exact drawn.mono fun _ _ below => Nat.lt_of_lt_of_le below more

theorem State.refreshDeploymentSlugs_drawn (drawn : s.DeploymentsDrawn uuids) :
    s.refreshDeploymentSlugs.DeploymentsDrawn uuids := by
  refine HashMap.Every.mapValues drawn fun id deployment below => ?_
  split <;> exact below

/-- Refreshing names every deployment as its repository is named. -/
theorem State.refreshDeploymentSlugs_current (apart : s.repos.Apart fun repo id => repo.id = id) :
    s.refreshDeploymentSlugs.SlugsCurrent := by
  intro id deployment stored slug repo found own
  have there : s.repos.lookup slug = some repo := found
  unfold State.refreshDeploymentSlugs at stored
  dsimp only at stored
  rw [lookup_mapValues] at stored
  obtain ⟨before, known, rfl⟩ := Option.map_eq_some_iff.mp stored
  have kept : repo.id = before.repositoryId := by
    split at own <;> exact own
  cases picked : s.repos.values.find? fun repo => repo.id == before.repositoryId with
  | none =>
    have listed := mem_values.mpr ⟨slug, there⟩
    exact absurd (List.find?_eq_none.mp picked repo listed) (by simp [kept])
  | some other =>
    obtain ⟨slug', there'⟩ := mem_values.mp (List.mem_of_find?_eq_some picked)
    have same' : other.id = before.repositoryId := by simpa using List.find?_some picked
    have place := apart _ _ _ _ _ there' there rfl (kept.trans same'.symm)
    subst place
    cases there'.symm.trans there
    exact ⟨rfl, rfl⟩

end Frames

section Sections

variable {call : Call} {core core' : ForgeCore} {reply : Option call.Reply}

/-- A transfer is committed of a repository without deployments. -/
def Call.Unshipped (call : Call) (core : ForgeCore) : Prop :=
  match call with
  | .commitRepositoryTransfer transactionId _ => ∀ key journal,
      core.state.transferForId transactionId = some (key, journal) → journal.status = .prepared →
      core.state.deployments.Every fun _ deployment => deployment.repositoryId ≠ journal.repositoryId
  | _ => True

/-- Deployments in memory and in the tables are of repositories drawn, and those in memory name
    theirs as they are named. -/
structure ForgeCore.Shipped (core : ForgeCore) : Prop where
  current : core.state.SlugsCurrent
  drawn : core.state.DeploymentsDrawn core.uuids
  stored : core.tables.DeploymentsDrawn core.uuids

theorem createRepositoryLocked_frames {owner : String} {request : CreateRepositoryRequest} :
    (createRepositoryLocked owner request core).Commits fun _ next _ =>
      next.deployments = core.state.deployments ∧ ReposFrom core.state next core.uuids := by
  unfold createRepositoryLocked
  dsimp only
  split
  · exact True.intro
  · simp only [Outcome.commits_commit]
    rw [State.ensureDefaultBranchProtection_eq]
    refine ⟨rfl, fun slug repo found => ?_⟩
    dsimp only at found
    rw [lookup_insert_if] at found
    split at found
    · cases found
      exact .inl (Nat.le_refl _)
    · exact .inr ⟨repo, found, rfl, rfl, rfl⟩

theorem deleteRepositoryLocked_frames {owner repo : String} :
    (deleteRepositoryLocked owner repo core).Commits fun _ next _ =>
      next.deployments = core.state.deployments ∧ ReposFrom core.state next core.uuids := by
  unfold deleteRepositoryLocked
  split
  · exact True.intro
  · refine ⟨rfl, fun slug repo found => ?_⟩
    replace found : (core.state.repos.erase _).lookup slug = some repo := found
    rw [lookup_erase_if] at found
    split at found
    · cases found
    · exact .inr ⟨repo, found, rfl, rfl, rfl⟩

theorem writeRenameLocked_refreshes {old new : Slug} :
    (writeRenameLocked old new core).Commits fun _ next _ => ∃ moved : State,
      next = moved.refreshDeploymentSlugs ∧ moved.deployments = core.state.deployments := by
  unfold writeRenameLocked
  dsimp only
  split
  · exact True.intro
  · refine Outcome.commits_ite (fun _ => True.intro) fun _ => ?_
    refine Outcome.commits_ite (fun _ => True.intro) fun _ => ?_
    refine Outcome.commits_ite (fun _ => True.intro) fun _ => ?_
    refine Outcome.commits_ite (fun _ => True.intro) fun _ => ?_
    split
    · exact True.intro
    · next rekeyed moved =>
      split
      · exact True.intro
      · obtain ⟨repository, -, -, -, -, rfl⟩ := rekeyRepository_ok moved
        exact ⟨_, rfl, rfl⟩

/-- The repository a transfer moves is the only one that is not where it was. -/
theorem commitTransferLocked_moves {transactionId : Uuid} {receipt : Value} :
    (commitTransferLocked transactionId receipt core).Commits fun _ next _ => ∃ key journal,
      core.state.transferForId transactionId = some (key, journal) ∧ journal.status = .prepared ∧
      next.deployments = core.state.deployments ∧ next.repos.Every fun slug repo =>
        repo.id = journal.repositoryId ∨ core.state.repos.lookup slug = some repo := by
  unfold commitTransferLocked
  cases known : core.state.transferForId transactionId with
  | none => exact True.intro
  | some entry =>
    obtain ⟨key, journal⟩ := entry
    dsimp only
    cases status : journal.status with
    | committed => exact True.intro
    | failed => exact True.intro
    | prepared =>
      dsimp only
      cases rekeyed : rekeyRepository core.state journal core.now with
      | error error => exact True.intro
      | ok moved =>
        obtain ⟨repository, live, free, vacant, same, rfl⟩ := rekeyRepository_ok rekeyed
        refine ⟨key, journal, rfl, status, rfl, fun slug repo found => ?_⟩
        replace found : ((core.state.repos.erase journal.source).insert journal.destination
          (movedRepository journal.destination core.now repository)).lookup slug = some repo := found
        rw [lookup_insert_if, lookup_erase_if] at found
        split at found
        · cases found
          exact .inl same
        · split at found
          · cases found
          · exact .inr found

/-- A deployment is appended to memory and to the tables, or to neither. -/
theorem createDeploymentLocked_appends {owner repo creator refName : String} {payload : Value}
    {production : Bool} {request : CreateDeploymentRequest} (appended : core' =
      (createDeploymentLocked owner repo creator refName payload production request core).leaves core) :
    core' = core ∨ ∃ (deployment : Deployment) (repository : Repository),
      core.state.repos.lookup (owner, repo) = some repository ∧
      deployment.repositoryId = repository.id ∧ deployment.owner = owner ∧ deployment.repo = repo ∧
      core'.state = { core.state with
        deployments := core.state.deployments.insert deployment.id deployment } ∧
      core'.journal = core.journal ++ core.recorded [.rows fun tables => { tables with
        deployments := tables.deployments.insert deployment.id deployment }] := by
  subst appended
  unfold createDeploymentLocked
  cases found : core.state.repos.lookup (owner, repo) with
  | none => exact .inl rfl
  | some repository =>
    dsimp only
    split
    · exact .inl rfl
    · let deployment : Deployment :=
        { id := (core.state.deployments.keys.max?.map (· + 1)).getD 1, repositoryId := repository.id
          owner, repo, sha := request.sha, refName, task := request.task
          environment := request.environment, description := request.description, payload
          productionEnvironment := production
          transientEnvironment := request.transientEnvironment, creator, createdAt := core.now }
      exact .inr ⟨deployment, repository, rfl, rfl, rfl, rfl, rfl, core.appended_journal _⟩

/-- What a section leaves of the deployments in memory. -/
theorem section_slugs (coherent : core.Coherent) (shipped : core.Shipped)
    (unshipped : call.Unshipped core) (sect : Section call core core' reply) :
    core'.state.SlugsCurrent ∧ core'.state.DeploymentsDrawn core'.uuids := by
  have effect := section_effect coherent sect
  have after := effect.coherent coherent
  have framed (frames : core'.state.deployments = core.state.deployments ∧
      ReposFrom core.state core'.state core.uuids) :
      core'.state.SlugsCurrent ∧ core'.state.DeploymentsDrawn core'.uuids :=
    ⟨shipped.current.frame shipped.drawn frames.1 frames.2, shipped.drawn.frame frames.1 effect.uuids⟩
  have kept (same : core'.state = core.state) :
      core'.state.SlugsCurrent ∧ core'.state.DeploymentsDrawn core'.uuids :=
    framed (by rw [same]; exact ⟨rfl, reposFrom_same rfl⟩)
  have renewed {moved : State} (refreshed : core'.state = moved.refreshDeploymentSlugs)
      (same : moved.deployments = core.state.deployments) :
      core'.state.SlugsCurrent ∧ core'.state.DeploymentsDrawn core'.uuids := by
    have repos : core'.state.repos = moved.repos := by
      rw [refreshed]
      rfl
    have apart := after.identified.repos
    rw [repos] at apart
    have drawn : moved.DeploymentsDrawn core.uuids := shipped.drawn.frame same (Nat.le_refl _)
    rw [refreshed]
    exact ⟨State.refreshDeploymentSlugs_current apart,
      (State.refreshDeploymentSlugs_drawn drawn).frame rfl effect.uuids⟩
  by_cases still : call.Deploys ∨ call.Shifts
  · cases sect with
    | createRepository =>
      rcases Outcome.leaves_state (@createRepositoryLocked_frames core _ _) with
        same | ⟨draws, next, value, known, moved, -⟩
      · exact kept same
      · rw [← moved] at known
        exact framed known
    | deleteRepository =>
      rcases Outcome.leaves_state (@deleteRepositoryLocked_frames core _ _) with
        same | ⟨draws, next, value, known, moved, -⟩
      · exact kept same
      · rw [← moved] at known
        exact framed known
    | renameRepository =>
      rcases Outcome.leaves_state (@writeRenameLocked_refreshes core _ _) with
        same | ⟨draws, next, value, ⟨moved, refreshed, same⟩, state, -⟩
      · exact kept same
      · exact renewed (state.trans refreshed) same
    | commitRepositoryTransfer =>
      rcases Outcome.leaves_state (@commitTransferLocked_moves core _ _) with
        same | ⟨draws, next, value, ⟨key, journal, known, prepared, same, moved⟩, state, -⟩
      · exact kept same
      · have others := unshipped key journal known prepared
        rw [← state] at same moved
        refine ⟨fun id deployment stored slug repo found own => ?_, shipped.drawn.frame same effect.uuids⟩
        rw [same] at stored
        rcases moved slug repo found with carried | stayed
        · exact absurd (own.symm.trans carried) (others id deployment stored)
        · exact shipped.current id deployment stored slug repo stayed own
    | createDeployment refName payload production =>
      rcases createDeploymentLocked_appends rfl with
        same | ⟨deployment, repository, live, own, owned, named, state, -⟩
      · exact kept (congrArg ForgeCore.state same)
      · have place := (coherent.keyed.repos _ _ live).1
        rw [state]
        constructor
        · refine HashMap.Every.insert shipped.current fun slug other found same => ?_
          have here := coherent.identified.repos _ _ _ _ _ found live rfl (same.trans own).symm
          subst here
          cases found.symm.trans live
          exact ⟨owned.trans (congrArg Prod.fst place).symm, named.trans (congrArg Prod.snd place).symm⟩
        · refine HashMap.Every.insert (shipped.drawn.frame rfl effect.uuids) ?_
          rw [own]
          exact Nat.lt_of_lt_of_le (coherent.identified.repoIds _ _ live) effect.uuids
    | audit entry audited => exact kept rfl
    | refused => exact kept rfl
    | profile profiled => cases profiled <;> exact absurd still (by simp [Call.Deploys, Call.Shifts])
    | _ => exact absurd still (by simp [Call.Deploys, Call.Shifts])
  · rw [not_or] at still
    exact framed (effect.moves.frames still.1 still.2)

/-- Only rows appended to the tables write their deployments. -/
theorem tables_deployments {journal writes : List Written}
    (plain : ∀ write ∈ writes, ∀ append, write ≠ .rows append) :
    (tablesOf (journal ++ writes)).deployments = (tablesOf journal).deployments := by
  induction writes using List.reverseRecOn with
  | nil => rw [List.append_nil]
  | append_singleton writes write ih =>
    have earlier := ih fun other member => plain other (List.mem_append_left _ member)
    have last : tablesOf (journal ++ (writes ++ [write])) = write.onto (tablesOf (journal ++ writes)) := by
      unfold tablesOf
      rw [← List.append_assoc, List.foldl_append]
      rfl
    rw [last, ← earlier]
    cases write with
    | receipt entry => rfl
    | snapshot next carried => rfl
    | rows append => exact absurd rfl (plain (.rows append) (by simp) append)

theorem tablesOf_rows (journal : List Written) (append : State → State) :
    tablesOf (journal ++ [.rows append]) = append (tablesOf journal) := by
  unfold tablesOf
  rw [List.foldl_append]
  rfl

/-- What a section leaves of the deployments in the tables. -/
theorem section_stored (coherent : core.Coherent) (shipped : core.Shipped)
    (sect : Section call core core' reply) : core'.tables.DeploymentsDrawn core'.uuids := by
  have effect := section_effect coherent sect
  obtain ⟨writes, journal, known⟩ := effect.written
  by_cases still : call.Deploys
  · cases call with
    | createDeployment owner repo creator request =>
      cases sect with
      | createDeployment refName payload production =>
        rcases createDeploymentLocked_appends rfl with
          same | ⟨deployment, repository, live, own, -, -, -, written⟩
        · rw [same]
          exact shipped.stored
        · refine State.DeploymentsDrawn.frame ?_ rfl effect.uuids
          unfold ForgeCore.tables
          rw [written]
          unfold ForgeCore.recorded
          split
          · rw [tablesOf_rows]
            refine HashMap.Every.insert shipped.stored ?_
            rw [own]
            exact coherent.identified.repoIds _ _ live
          · rw [List.append_nil]
            exact shipped.stored
      | audit entry audited => cases audited
      | refused => exact shipped.stored
      | profile profiled => cases profiled
    | _ => exact absurd still id
  · have plain : ∀ write ∈ writes, ∀ append, write ≠ .rows append := by
      intro write member append same
      subst same
      exact still (known _ member).1.1
    have same : core'.tables.deployments = core.tables.deployments := by
      unfold ForgeCore.tables
      rw [journal, tables_deployments plain]
    exact shipped.stored.frame same effect.uuids

end Sections

section Restarts

variable {core core' : ForgeCore}

theorem foldl_deployments {α : Type} {repair : State → α → State}
    (kept : ∀ s item, (repair s item).deployments = s.deployments) (items : List α) (s : State) :
    (items.foldl repair s).deployments = s.deployments := by
  induction items generalizing s with
  | nil => rfl
  | cons item rest ih => rw [List.foldl_cons, ih, kept]

theorem State.loaded_deployments (s : State) (now : DateTime) :
    (s.loaded now).deployments = s.refreshDeploymentSlugs.deployments := by
  have counters (s : State) (slug : Slug) : (s.backfillCounters slug).deployments = s.deployments := by
    unfold State.backfillCounters
    split <;> rfl
  have rules (s : State) (repo : Repository) :
      (s.ensureDefaultBranchProtection repo now).deployments = s.deployments := by
    rw [State.ensureDefaultBranchProtection_eq]
  unfold State.loaded State.backfillDefaultBranchProtections State.backfillMissingCounters
  rw [foldl_deployments rules, foldl_deployments counters]

/-- A restart refreshes what it loads. -/
theorem Reopens.shipped (reopens : Reopens core core') (onDisk : core.OnDisk)
    (stored : core.tables.DeploymentsDrawn core.uuids) : core'.Shipped := by
  have kept : core'.tables.deployments = core.tables.deployments := by
    rcases reopens.journal with same | ⟨-, written⟩
    · unfold ForgeCore.tables
      rw [same]
    · unfold ForgeCore.tables
      rw [written, tables_deployments]
      intro write member append
      rw [List.mem_singleton.mp member]
      exact fun same => nomatch same
  obtain ⟨now, auth, state⟩ := reopens.state
  have deployments : core'.state.deployments = core.tables.refreshDeploymentSlugs.deployments := by
    rw [state]
    exact core.tables.loaded_deployments now
  have repos : core'.state.repos = core.tables.refreshDeploymentSlugs.repos := by
    obtain ⟨_, _, _, _, _, _, _, _, _, same⟩ := reopens.tables onDisk
    rw [same]
    rfl
  have current := State.refreshDeploymentSlugs_current onDisk.tables.coherent.identified.repos
  constructor
  · unfold State.SlugsCurrent
    rw [deployments, repos]
    exact current
  · exact (State.refreshDeploymentSlugs_drawn stored).frame deployments reopens.uuids
  · exact stored.frame kept reopens.uuids

/-- A store on disk, the deployments of which nothing writes but the calls. -/
def shipping : System ForgeCore Call.Reply where
  program call := call.method.run
  ambient core core' := Surroundings (fun _ => True) core core' ∧
    core'.state.deployments = core.state.deployments ∧
    core'.tables.deployments = core.tables.deployments
  admits := Admits

theorem Surroundings.shipped {Own : AuditEntry → Prop} (moved : Surroundings Own core core')
    (memory : core'.state.deployments = core.state.deployments)
    (tables : core'.tables.deployments = core.tables.deployments) (shipped : core.Shipped) :
    core'.Shipped := by
  have repos : core'.state.repos = core.state.repos := by
    obtain ⟨_, _, _, _, _, _, _, same⟩ := moved.state
    rw [same]
  exact ⟨shipped.current.frame shipped.drawn memory (reposFrom_same repos),
    shipped.drawn.frame memory moved.uuids, shipped.stored.frame tables moved.uuids⟩

/-- Nothing is asked of a section but of a transfer that is committed. -/
def Undelivered (call : Call) (_ : ForgeCore → ForgeCore) (core : ForgeCore) : Prop :=
  call.Unshipped core

theorem shipping_enduring (allows : Call → (ForgeCore → ForgeCore) → ForgeCore → Prop) :
    Enduring shipping allows Reopens ForgeCore.OnDisk ForgeCore.Onward
      (fun call core core' reply => Section call core core' reply) fun _ _ _ => True where
  refl := .refl
  trans _ _ _ := .trans
  kept _ _ found onward := onward.onDisk found
  programs call core _ := (call_writes call).meets.meetsFrom (T := ForgeCore.Onward) core
  ends _ _ _ := Program.endsFrom_of_every (fun _ _ => True.intro) _ _
  stable _ _ _ _ _ known := known
  ambient _ _ _ moved := moved.1.onward
  sections _ _ _ _ found _ sect := (section_effect found.coherent sect).onward found
  restarts _ _ found reopens := reopens.onward found

/-- Where no transfer is committed of a repository with deployments, every deployment carries its
    repository's owner and name. -/
theorem deployments_follow {start pool : Pool} (fresh : start.Fresh)
    (lives : Lives shipping Undelivered Reopens start pool) : pool.shared.state.SlugsCurrent := by
  have empty : start.shared.Shipped := by
    constructor
    · rw [fresh.empty]
      exact every_empty
    · rw [fresh.empty]
      exact every_empty
    · unfold ForgeCore.tables
      rw [fresh.journal]
      exact every_empty
  have onCourse : start.OnCourse ForgeCore.OnDisk ForgeCore.Onward
      (fun call core core' reply => Section call core core' reply) fun _ _ _ => True := by
    refine ⟨fresh.onDisk, fun task member => ?_, fun task member => ?_⟩
    · rw [fresh.idle] at member
      cases member
    · rw [fresh.idle] at member
      cases member
  have shipped : pool.shared.Shipped :=
    (shipping_enduring Undelivered).keeps
      (fun _ _ _ shipped moved => moved.1.shipped moved.2.1 moved.2.2 shipped)
      (fun _ _ _ _ found shipped unshipped sect => by
        obtain ⟨current, drawn⟩ := section_slugs found.coherent shipped unshipped sect
        exact ⟨current, drawn, section_stored found.coherent shipped sect⟩)
      (fun _ _ found shipped reopens => reopens.shipped found shipped.stored) lives onCourse empty
  exact shipped.current

end Restarts

section Demo

def deployDemo : Call :=
  .createDeployment "acme" "demo" "ci"
    { sha := Call.demoHead, refName := none, task := "deploy", environment := "production"
      description := none, payload := none, productionEnvironment := none
      transientEnvironment := false }

/-- The demo repository is deployed, and renamed. -/
def deployedAndRenamed : List Call :=
  [.newDemo, deployDemo, .renameRepository "alice" "acme" "demo" "acme" "next"]

def renamedPool : Pool := ForgeCore.durable.played (deployedAndRenamed.map .alone)

theorem renamed_lives : Lives shipping Undelivered Reopens ⟨ForgeCore.durable, []⟩ renamedPool := by
  have plays : Config.Plays shipping Undelivered ⟨ForgeCore.durable, []⟩ (deployedAndRenamed.map .alone) := by
    apply plays_whole rfl rfl
    intro call member update core
    simp only [deployedAndRenamed, List.mem_cons, List.not_mem_nil, or_false] at member
    rcases member with rfl | rfl | rfl <;> exact True.intro
  have run : Run shipping Undelivered ⟨ForgeCore.durable, []⟩ renamedPool := play_run plays
  exact run.lives

theorem renamed_follow : (renamedPool.shared.state.deployments.lookup 1).map Deployment.repo = some "next" ∧
    renamedPool.shared.state.SlugsCurrent :=
  ⟨by decide +kernel, deployments_follow fresh_durable renamed_lives⟩

/-- The demo repository is deployed, and given to another owner. -/
def deployedAndMoved : List Call :=
  [.newDemo, deployDemo, prepareMove "bravo" "first", .commitRepositoryTransfer 1 (.object [])]

def movedPool : Pool := ForgeCore.durable.played (deployedAndMoved.map .alone)

/-- After the transfer the deployment still names the owner its repository had. -/
theorem moved_left_behind : ¬∀ start pool : Pool, start.Fresh →
    Lives shipping (fun _ _ _ => True) Reopens start pool → pool.shared.state.SlugsCurrent := by
  intro follows
  have run : Run shipping (fun _ _ _ => True) ⟨ForgeCore.durable, []⟩ movedPool :=
    play_run (plays_whole rfl rfl fun _ _ _ _ => True.intro)
  have current := follows ⟨ForgeCore.durable, []⟩ movedPool fresh_durable run.lives
  have stored : (movedPool.shared.state.deployments.lookup 1).map
      (fun deployment => (deployment.repositoryId, deployment.owner)) = some (0, "acme") := by
    decide +kernel
  have moved : (movedPool.shared.state.repos.lookup ("bravo", "demo")).map
      (fun repo => (repo.id, repo.owner)) = some (0, "bravo") := by decide +kernel
  obtain ⟨deployment, there, own⟩ := Option.map_eq_some_iff.mp stored
  obtain ⟨repo, live, named⟩ := Option.map_eq_some_iff.mp moved
  obtain ⟨id, owner⟩ := Prod.mk.inj own
  obtain ⟨id', owner'⟩ := Prod.mk.inj named
  have same := (current 1 deployment there _ repo live (id'.trans id.symm)).1
  rw [owner, owner'] at same
  exact absurd same (by decide)

end Demo

end Jeryu.Core
