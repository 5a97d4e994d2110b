import Mathlib.Algebra.GroupWithZero.Nat
import Jeryu.Core.Accounts

namespace Jeryu.Core

open KeyedMap Text

def createRepositoryLocked (owner : String) (request : CreateRepositoryRequest) (core : ForgeCore) :
    Outcome Repository :=
  let key := (owner, request.name)
  if (core.state.repos.lookup key).isSome then
    .refuse (.conflict s!"repository {owner}/{request.name}")
  else
    let repo : Repository :=
      { id := core.uuids, owner, name := request.name, fullName := s!"{owner}/{request.name}"
        isPrivate := request.isPrivate, description := request.description
        defaultBranch := request.defaultBranch.getD "main", family := none, archived := false
        disabled := false, createdAt := core.now, updatedAt := core.now, pushedAt := none
        defaultBranchProtectionOptOut := false }
    let state := { core.state with
      counters := core.state.counters.insert key ⟨0, 0⟩
      repos := core.state.repos.insert key repo }
    .commit [] 1 (state.ensureDefaultBranchProtection repo core.now) none repo

def createRepository (owner : String) (request : CreateRepositoryRequest) : Method Repository := do
  .ofExcept (requireName "repository name" request.name)
  let repo ← .locked (createRepositoryLocked owner request)
  .reading fun core =>
    match core.repoMaterializer with
    | some materialize => materialize owner repo.name repo.defaultBranch
    | none => .ok ()
  return repo

/-- Write one field of a repository under the lock. -/
def editRepositoryLocked (owner repo : String) (edit : Repository → Repository) (core : ForgeCore) :
    Outcome Repository :=
  match core.state.repos.lookup (owner, repo) with
  | none => .refuse (.notFound s!"repository {owner}/{repo}")
  | some entry =>
    let updated := edit entry
    .commit [] 0 { core.state with repos := core.state.repos.insert (owner, repo) updated } none
      updated

def setFamilyLocked (owner repo : String) (family : Option String) (core : ForgeCore) :
    Outcome Repository :=
  editRepositoryLocked owner repo
    (fun entry => { entry with family, updatedAt := core.now }) core

def setRepositoryFamily (owner repo : String) (family : Option String) : Method Repository := do
  let family ← match family with
    | some value =>
      if isBlank value then
        throw (.error (.validation "family must not be blank; send null to clear it"))
      else pure (some (trim value))
    | none => pure none
  .locked (setFamilyLocked owner repo family)

def writeRepositoryArchived (owner repo : String) (archived : Bool) (core : ForgeCore) :
    Outcome Repository :=
  editRepositoryLocked owner repo
    (fun entry => { entry with archived, updatedAt := core.now }) core

/-- The phase that closes a receipt. -/
def closingPhase {ε α : Type} : Except ε α → AuditPhase
  | .ok _ => .completed
  | .error _ => .failed

def setRepositoryArchived (actor owner repo : String) (archived : Bool) : Method Repository := do
  let current ← canonicalRepository owner repo
  if current.archived = archived then return current
  appendAuditAs actor "repository.archived" s!"{owner}/{repo}" .requested
  (Method.locked (writeRepositoryArchived owner repo archived)).inspect fun result =>
    appendAuditAs actor "repository.archived" s!"{owner}/{repo}" (closingPhase result)

def setDefaultBranchLocked (owner repo branch : String) (core : ForgeCore) : Outcome Repository :=
  match core.state.repos.lookup (owner, repo) with
  | none => .refuse (.notFound s!"repository {owner}/{repo}")
  | some entry =>
    let updated := { entry with defaultBranch := branch, updatedAt := core.now }
    let state := { core.state with repos := core.state.repos.insert (owner, repo) updated }
    .commit [] 0 (state.ensureDefaultBranchProtection updated core.now) none updated

def setRepositoryDefaultBranch (owner repo branch : String) (branches : RepoBranches) :
    Method Repository := do
  .ofExcept (requireName "branch" branch)
  if trim branch != branch then
    throw (.error (.validation "branch must not have surrounding whitespace"))
  let current ← canonicalRepository owner repo
  let owner := current.owner
  let repo := current.name
  if !(← .ofExcept (branches.branchExists owner repo branch)) then
    throw (.error (.notFound s!"branch {branch} in repository {owner}/{repo}"))
  if (← .ofExcept (branches.headBranch owner repo)) != some branch then
    .ofExcept (branches.pointHeadAt owner repo branch)
  if current.defaultBranch = branch then return current
  .locked (setDefaultBranchLocked owner repo branch)

/-- `rule` equals the automatic default-branch rule, ignoring `updated_at`. -/
def isAutomaticRule (rule automatic : BranchProtectionRule) : Bool :=
  { rule with updatedAt := automatic.updatedAt } = automatic

/-- What the opt-out section found. -/
inductive OptOut where
  | requiresContext
  | already (repo : Repository)
  | changed (repo : Repository)

/-- The edited repository stored, and the rule its new setting asks for or gives up. -/
def State.withOptOut (state : State) (owner repo : String) (updated : Repository) (now : DateTime) :
    State :=
  let state := { state with repos := state.repos.insert (owner, repo) updated }
  let ruleKey := (owner, repo, updated.defaultBranch)
  let automatic := defaultBranchProtectionRule owner repo updated.defaultBranch now
  if updated.defaultBranchProtectionOptOut then
    if (state.branchProtections.lookup ruleKey).any fun rule => isAutomaticRule rule automatic
    then { state with branchProtections := state.branchProtections.erase ruleKey }
    else state
  else state.ensureDefaultBranchProtection updated now

theorem State.withOptOut_eq (state : State) (owner repo : String) (updated : Repository)
    (now : DateTime) :
    state.withOptOut owner repo updated now = { state with
      repos := state.repos.insert (owner, repo) updated
      branchProtections := (state.withOptOut owner repo updated now).branchProtections } := by
  unfold State.withOptOut
  dsimp only
  split
  · split <;> rfl
  · rw [State.ensureDefaultBranchProtection_eq]

theorem State.lookup_withOptOut {state : State} {owner repo : String} {updated : Repository}
    {now : DateTime} {key : Scoped String} {rule : BranchProtectionRule}
    (found : (state.withOptOut owner repo updated now).branchProtections.lookup key = some rule) :
    state.branchProtections.lookup key = some rule ∨
      (key = (updated.owner, updated.name, updated.defaultBranch) ∧
        rule = defaultBranchProtectionRule updated.owner updated.name updated.defaultBranch now) := by
  unfold State.withOptOut at found
  dsimp only at found
  split at found
  · split at found
    · rw [HashMap.lookup_erase_if] at found
      split at found
      · cases found
      · exact .inl found
    · exact .inl found
  · rcases lookup_ensureDefaultBranchProtection found with stored | ⟨same, -, automatic⟩
    · exact .inl stored
    · exact .inr ⟨same, automatic⟩

def setOptOutLocked (owner repo : String) (optOut : Bool) (core : ForgeCore) : Outcome OptOut :=
  if optOut && core.state.repoRequiresStatusContext owner repo then .unchanged .requiresContext
  else match core.state.repos.lookup (owner, repo) with
    | none => .refuse (.notFound s!"repository {owner}/{repo}")
    | some entry =>
      if entry.defaultBranchProtectionOptOut = optOut then .unchanged (.already entry)
      else
        let updated :=
          { entry with defaultBranchProtectionOptOut := optOut, updatedAt := core.now }
        .commit [] 0 (core.state.withOptOut owner repo updated core.now) none (.changed updated)

def setDefaultBranchProtectionOptOut (actor owner repo : String) (optOut : Bool) :
    Method Repository := do
  let _ ← canonicalRepository owner repo
  requireGlobalAdmin actor
  let action := "repository.default_branch_protection_opt_out"
  let subject := s!"{owner}/{repo}"
  match ← Method.locked (setOptOutLocked owner repo optOut) with
  | .requiresContext =>
    appendAudit action subject .failed
    throw (.error (.validation
      s!"repository {owner}/{repo} requires a status context; its default branch cannot opt out of protection"))
  | .already entry => return entry
  | .changed updated =>
    appendAudit action subject .completed
    return updated

def recordPushLocked (owner repo : String) (time : DateTime) (core : ForgeCore) : Outcome Repository :=
  match core.state.repos.lookup (owner, repo) with
  | none => .refuse (.notFound s!"repository {owner}/{repo}")
  | some current =>
    if current.pushedAt.any fun pushedAt => pushedAt ≥ time then .unchanged current
    else editRepositoryLocked owner repo (fun entry => { entry with pushedAt := some time }) core

def recordRepositoryPush (owner repo : String) (time : DateTime) : Method Repository :=
  .locked (recordPushLocked owner repo time)

/-- Fill one repository that still has no push time. -/
def fillPushedAt (filled : Nat × State) (found : Slug × DateTime) : Nat × State :=
  match filled.2.repos.lookup found.1 with
  | some entry =>
    if entry.pushedAt.isNone then
      (filled.1 + 1, { filled.2 with
        repos := filled.2.repos.insert found.1 { entry with pushedAt := some found.2 } })
    else filled
  | none => filled

def backfillLocked (found : List (Slug × DateTime)) (core : ForgeCore) : Outcome Nat :=
  let (filled, state) := found.foldl fillPushedAt (0, core.state)
  if filled > 0 then .commit [] 0 state none filled else .unchanged filled

/-- `history` is the newest commit time git storage answers for a slug. -/
def newestCommitTimes (history : Slug → Except ForgeError (Option DateTime)) :
    List Slug → Except ForgeError (List (Slug × DateTime))
  | [] => .ok []
  | slug :: rest => do
    let newest ← history slug
    let found ← newestCommitTimes history rest
    return match newest with
      | some time => (slug, time) :: found
      | none => found

def backfillRepositoryPushedAt (history : Slug → Except ForgeError (Option DateTime)) :
    Method Nat := do
  let pending ← Method.reading fun core =>
    .ok ((core.state.repos.pairs.filter fun (_, repo) => repo.pushedAt.isNone).map Prod.fst)
  let found ← .ofExcept (newestCommitTimes history pending)
  if found.isEmpty then return 0
  .locked (backfillLocked found)

section Drain

variable {κ ν : Type} [DecidableEq κ]

def scopedKeys (m : HashMap (Scoped κ) ν) (owner repo : String) : List (Scoped κ) :=
  m.keys.filter fun key => key.1 == owner && key.2.1 == repo

omit [DecidableEq κ] in
theorem mem_scopedKeys {m : HashMap (Scoped κ) ν} {owner repo : String} {key : Scoped κ} :
    key ∈ scopedKeys m owner repo ↔ key ∈ m.keys ∧ key.1 = owner ∧ key.2.1 = repo := by
  simp [scopedKeys]

def drainScoped (m : HashMap (Scoped κ) ν) (owner repo : String) : HashMap (Scoped κ) ν :=
  m.removeAll (scopedKeys m owner repo)

/-- Removed elements of the buckets under `keys`. -/
def countVecs {κ : Type} [DecidableEq κ] (m : HashMap κ (List ν)) (keys : List κ) : Nat :=
  (keys.map fun key => ((m.lookup key).getD []).length).sum

end Drain

def grantKeys (m : HashMap GrantKey RepoAccessGrant) (owner repo : String) : List GrantKey :=
  m.keys.filter fun key => key.2.1 == owner && key.2.2 == repo

theorem mem_grantKeys {m : HashMap GrantKey RepoAccessGrant} {owner repo : String} {key : GrantKey} :
    key ∈ grantKeys m owner repo ↔ key ∈ m.keys ∧ key.2 = (owner, repo) := by
  simp [grantKeys, Prod.ext_iff]

/-- `RepositoryDeletion`, its counts as `removed_counts` lists them. -/
structure RepositoryDeletion where
  repo : Repository
  removedCounts : List (String × Nat)

/-- Everything scoped to `owner/repo`, and what names the repository by its id, removed. -/
def State.withoutRepository (state : State) (owner repo : String) (id : Uuid) : State :=
  { state with
    repos := state.repos.erase (owner, repo)
    labels := drainScoped state.labels owner repo
    issues := drainScoped state.issues owner repo
    issueComments := drainScoped state.issueComments owner repo
    pulls := drainScoped state.pulls owner repo
    reviews := drainScoped state.reviews owner repo
    reviewComments := drainScoped state.reviewComments owner repo
    branchProtections := drainScoped state.branchProtections owner repo
    codeowners := state.codeowners.erase (owner, repo)
    readmes := state.readmes.erase (owner, repo)
    statuses := drainScoped state.statuses owner repo
    checkRuns := state.checkRuns.erase (owner, repo)
    webhooks := state.webhooks.erase (owner, repo)
    webhookDeliveries := state.webhookDeliveries.filter fun delivery =>
      !(delivery.owner == owner && delivery.repo == repo)
    counters := state.counters.erase (owner, repo)
    jankuraiScores := state.jankuraiScores.erase (owner, repo)
    repoGrants := state.repoGrants.removeAll (grantKeys state.repoGrants owner repo)
    botRepoGrants := state.botRepoGrants.retain fun key _ => key.2 != id
    repositoryAliases := state.repositoryAliases.retain fun _ redirect => redirect.repositoryId != id
    repositoryTransfers := state.repositoryTransfers.retain fun _ journal => journal.repositoryId != id }

def State.removedCounts (state : State) (owner repo : String) : List (String × Nat) :=
  let slug := (owner, repo)
  let present {ν : Type} (m : HashMap Slug ν) : Nat := if (m.lookup slug).isSome then 1 else 0
  [("labels", (scopedKeys state.labels owner repo).length),
    ("issues", (scopedKeys state.issues owner repo).length),
    ("issue_comments", countVecs state.issueComments (scopedKeys state.issueComments owner repo)),
    ("pulls", (scopedKeys state.pulls owner repo).length),
    ("reviews", countVecs state.reviews (scopedKeys state.reviews owner repo)),
    ("review_comments", countVecs state.reviewComments (scopedKeys state.reviewComments owner repo)),
    ("branch_protections", (scopedKeys state.branchProtections owner repo).length),
    ("codeowners", present state.codeowners),
    ("readmes", present state.readmes),
    ("commit_statuses", countVecs state.statuses (scopedKeys state.statuses owner repo)),
    ("check_runs", countVecs state.checkRuns [slug]),
    ("webhooks", countVecs state.webhooks [slug]),
    ("webhook_deliveries", (state.webhookDeliveries.filter fun delivery =>
      delivery.owner == owner && delivery.repo == repo).length),
    ("counters", present state.counters),
    ("jankurai_scores", countVecs state.jankuraiScores [slug]),
    ("repo_grants", (grantKeys state.repoGrants owner repo).length)]

def deleteRepositoryLocked (owner repo : String) (core : ForgeCore) : Outcome RepositoryDeletion :=
  match core.state.repos.lookup (owner, repo) with
  | none => .refuse (.notFound s!"repository {owner}/{repo}")
  | some removedRepo =>
    .commit [] 0 (core.state.withoutRepository owner repo removedRepo.id) none
      ⟨removedRepo, core.state.removedCounts owner repo⟩

def deleteRepository (owner repo : String) : Method RepositoryDeletion :=
  .locked (deleteRepositoryLocked owner repo)

def createLabelLocked (owner repo : String) (request : CreateLabelRequest) (core : ForgeCore) :
    Outcome Label :=
  let key := (owner, repo, request.name)
  if (core.state.labels.lookup key).isSome then
    .refuse (.conflict s!"label {owner}/{repo}/{request.name}")
  else
    let label : Label :=
      { id := core.uuids, name := request.name, color := request.color
        description := request.description }
    .commit [] 1 { core.state with labels := core.state.labels.insert key label } none label

def createLabel (owner repo : String) (request : CreateLabelRequest) : Method Label := do
  .ofExcept (requireName "label name" request.name)
  ensureRepoExists owner repo
  .locked (createLabelLocked owner repo request)

end Jeryu.Core
