import Jeryu.Core.Repositories
import Jeryu.Core.Protection
import Jeryu.Core.PullRequests
import Jeryu.Core.RecordReview
import Jeryu.Core.Relocation

namespace Jeryu.Core

open KeyedMap

section Keys

def Repository.slug (repo : Repository) : Slug := (repo.owner, repo.name)

def RepoAccessGrant.key (grant : RepoAccessGrant) : GrantKey := (grant.login, grant.owner, grant.repo)

def Issue.key (issue : Issue) : Scoped Nat := (issue.owner, issue.repo, issue.number)

def IssueComment.key (comment : IssueComment) : Scoped Nat :=
  (comment.owner, comment.repo, comment.issueNumber)

def PullRequest.key (pr : PullRequest) : Scoped Nat := (pr.owner, pr.repo, pr.number)

def Review.key (review : Review) : Scoped Nat := (review.owner, review.repo, review.pullNumber)

def ReviewComment.key (comment : ReviewComment) : Scoped Nat :=
  (comment.owner, comment.repo, comment.pullNumber)

def BranchProtectionRule.key (rule : BranchProtectionRule) : Scoped String :=
  (rule.owner, rule.repo, rule.branch)

def CommitStatus.key (status : CommitStatus) : Scoped String :=
  (status.owner, status.repo, status.sha)

def CheckRun.slug (run : CheckRun) : Slug := (run.owner, run.repo)

def Webhook.slug (hook : Webhook) : Slug := (hook.owner, hook.repo)

def JankuraiScore.slug (score : JankuraiScore) : Slug := (score.owner, score.repo)

def WebhookDelivery.slug (delivery : WebhookDelivery) : Slug := (delivery.owner, delivery.repo)

end Keys

/-- What a section may write, besides the records it finds. -/
structure Footprint where
  /-- The repositories whose records it may write. -/
  touches : Slug → Prop
  /-- The repositories it may create records for. -/
  creates : Slug → Prop
  /-- Whether it may create, drop or move a repository. -/
  shifts : Prop
  /-- The identifiers it drew. -/
  drawn : Uuid → Prop
  /-- The edits of pull requests callers ask for in so many words. -/
  updates : PullRequest → UpdatePullRequestRequest → Prop
  /-- The protection rules callers ask for. -/
  protects : BranchProtectionRule → Prop
  /-- Whether it may open a transfer journal or close one where it stands. -/
  journals : Prop
  /-- Whether it may drop a repository. -/
  drops : Prop
  /-- Whether it may write a dismissal by an administrator. -/
  dismisses : Prop
  /-- Whether it found no pull request under a number still to be handed out. -/
  ordered : Prop
  /-- Whether it may append a deployment. -/
  deploys : Prop
  /-- Whether it may write the protection rules of a repository. -/
  rules : Prop

/-- What the surroundings of the sections may write. -/
def Footprint.ambient : Footprint where
  touches _ := False
  creates _ := False
  shifts := False
  drawn _ := False
  updates _ _ := False
  protects _ := False
  journals := False
  drops := False
  dismisses := False
  ordered := True
  deploys := False
  rules := False

/-- Everything a re-evaluation, a new head or a new base leaves alone. -/
structure PullRequest.Follows (edited pr : PullRequest) : Prop where
  id : edited.id = pr.id
  owner : edited.owner = pr.owner
  repo : edited.repo = pr.repo
  number : edited.number = pr.number
  issueNumber : edited.issueNumber = pr.issueNumber
  author : edited.author = pr.author
  sourceRepository : edited.sourceRepository = pr.sourceRepository
  state : edited.state = pr.state
  draft : edited.draft = pr.draft
  merged : edited.merged = pr.merged
  mergedAt : edited.mergedAt = pr.mergedAt
  mergeCommitSha : edited.mergeCommitSha = pr.mergeCommitSha

theorem PullRequest.Follows.refl (pr : PullRequest) : pr.Follows pr :=
  ⟨rfl, rfl, rfl, rfl, rfl, rfl, rfl, rfl, rfl, rfl, rfl, rfl⟩

/-- The repositories some record is keyed by, map after map. -/
def State.scopedSlugs (state : State) : List Slug :=
  (state.repoGrants.keys.map fun key => (key.2.1, key.2.2)) ++
  (state.labels.keys.map fun key => (key.1, key.2.1)) ++
  (state.issues.keys.map fun key => (key.1, key.2.1)) ++
  (state.issueComments.keys.map fun key => (key.1, key.2.1)) ++
  (state.pulls.keys.map fun key => (key.1, key.2.1)) ++
  (state.reviews.keys.map fun key => (key.1, key.2.1)) ++
  (state.reviewComments.keys.map fun key => (key.1, key.2.1)) ++
  (state.branchProtections.keys.map fun key => (key.1, key.2.1)) ++
  state.codeowners.keys ++
  state.readmes.keys ++
  (state.statuses.keys.map fun key => (key.1, key.2.1)) ++
  state.checkRuns.keys ++
  state.webhooks.keys ++
  state.counters.keys ++
  state.jankuraiScores.keys

/-- One record written. The repositories stay where they are. -/
inductive Touch (print : Footprint) : State → State → Prop where
  | people {s} (users accounts bots botRepoGrants organizations auth) :
      Touch print s { s with users, accounts, bots, botRepoGrants, organizations, auth }
  | granted {s} (grant : RepoAccessGrant) (may : print.creates (grant.owner, grant.repo))
      (within : print.touches (grant.owner, grant.repo)) :
      Touch print s
        { s with repoGrants := s.repoGrants.insert grant.key grant }
  | revoked {s} (key : GrantKey) (within : print.touches key.2) :
      Touch print s { s with repoGrants := s.repoGrants.erase key }
  | repositoryEdited {s} {slug : Slug} {entry : Repository}
      (found : s.repos.lookup slug = some entry) (family archived updatedAt pushedAt) :
      Touch print s { s with
        repos := s.repos.insert slug { entry with family, archived, updatedAt, pushedAt } }
  | defaultBranchSet {s} {slug : Slug} {entry updated : Repository}
      (found : s.repos.lookup slug = some entry) (within : print.touches slug) (branch : String)
      (now : DateTime) (edited : updated = { entry with defaultBranch := branch, updatedAt := now })
      (ruling : print.rules) :
      Touch print s
        ({ s with repos := s.repos.insert slug updated }.ensureDefaultBranchProtection updated now)
  | optOutSet {s} {slug : Slug} {entry updated : Repository}
      (found : s.repos.lookup slug = some entry) (within : print.touches slug) (optOut : Bool)
      (now : DateTime) (edited : updated = { entry with
        defaultBranchProtectionOptOut := optOut, updatedAt := now })
      (free : optOut = true → s.repoRequiresStatusContext slug.1 slug.2 = false)
      (ruling : print.rules) :
      Touch print s (s.withOptOut slug.1 slug.2 updated now)
  | ruleSet {s} (rule : BranchProtectionRule) (may : print.creates (rule.owner, rule.repo))
      (within : print.touches (rule.owner, rule.repo)) (asked : print.protects rule)
      (ruling : print.rules) :
      Touch print s { s with
        branchProtections := s.branchProtections.insert rule.key rule }
  | ruleRemoved {s} {slug : Slug} {repository : Repository} (branch : String)
      (within : print.touches slug) (live : s.repos.lookup slug = some repository)
      (optional : repository.defaultBranch = branch → s.defaultRuleIsMandatory repository = false)
      (ruling : print.rules) :
      Touch print s { s with
        branchProtections := s.branchProtections.erase (slug.1, slug.2, branch) }
  | ruleRekeyed {s} {slug : Slug} {branch : String} {rule : BranchProtectionRule}
      {repository : Repository} (within : print.touches slug)
      (found : s.branchProtections.lookup (slug.1, slug.2, branch) = some rule)
      (live : s.repos.lookup slug = some repository) (ordinary : repository.defaultBranch ≠ branch)
      (decoded : String)
      (free : s.branchProtections.lookup (slug.1, slug.2, decoded) = none) (ruling : print.rules) :
      Touch print s { s with
        branchProtections := (s.branchProtections.erase (slug.1, slug.2, branch)).insert
          (slug.1, slug.2, decoded) { rule with branch := decoded } }
  | labelled {s} (owner repo : String) (label : Label) (may : print.creates (owner, repo))
      (within : print.touches (owner, repo)) :
      Touch print s { s with labels := s.labels.insert (owner, repo, label.name) label }
  | codeownersSet {s} (slug : Slug) (contents : String) (may : print.creates slug)
      (within : print.touches slug) :
      Touch print s { s with codeowners := s.codeowners.insert slug contents }
  | readmeSet {s} (slug : Slug) (markdown : String) (may : print.creates slug)
      (within : print.touches slug) :
      Touch print s { s with readmes := s.readmes.insert slug markdown }
  | hooked {s} (hook : Webhook) (may : print.creates hook.slug)
      (within : print.touches hook.slug) :
      Touch print s { s with webhooks := s.webhooks.push hook.slug hook }
  | scored {s} (slug : Slug) (scores : List JankuraiScore) (may : print.creates slug)
      (within : print.touches slug) (kept : scores ≠ [])
      (own : ∀ score ∈ scores, score.slug = slug ∨
        score ∈ (s.jankuraiScores.lookup slug).getD []) :
      Touch print s { s with jankuraiScores := s.jankuraiScores.insert slug scores }
  | issueOpened {s} {numbered : State} (issue : Issue)
      (may : print.creates (issue.owner, issue.repo))
      (within : print.touches (issue.owner, issue.repo))
      (next : s.nextRecordNumber issue.owner issue.repo = (issue.number, numbered)) :
      Touch print s { numbered with issues := numbered.issues.insert issue.key issue }
  | issueEdited {s} {key : Scoped Nat} {issue edited : Issue}
      (found : s.issues.lookup key = some issue) (within : print.touches (key.1, key.2.1))
      (same : edited.key = issue.key) (identity : edited.id = issue.id)
      (marker : edited.pullRequest = issue.pullRequest) :
      Touch print s { s with issues := s.issues.insert key edited }
  | commented {s} {issue : Issue} (comment : IssueComment)
      (found : s.issues.lookup comment.key = some issue)
      (within : print.touches (comment.owner, comment.repo)) :
      Touch print s { s with
        issueComments := s.issueComments.push comment.key comment }
  | pullOpened {s} {key : Scoped Nat} {issue : Issue} (pr : PullRequest) (own : pr.key = key)
      (may : print.creates (key.1, key.2.1)) (within : print.touches (key.1, key.2.1))
      (drawn : print.drawn pr.id)
      (fresh : ∀ key stored, s.pulls.lookup key = some stored → stored.id ≠ pr.id)
      (backed : s.issues.lookup key = some issue) (marked : issue.pullRequest.isSome)
      (issueNumber : pr.issueNumber = pr.number) (unmerged : pr.merged = false)
      (live : pr.state ≠ .merged) (undated : pr.mergedAt = none)
      (unrecorded : pr.mergeCommitSha = none)
      (vacant : print.ordered → s.pulls.lookup key = none) (gated : pr.Gated) :
      Touch print s { s with pulls := s.pulls.insert key pr }
  | pullEdited {s} {key : Scoped Nat} {pr edited : PullRequest}
      (found : s.pulls.lookup key = some pr) (within : print.touches (key.1, key.2.1))
      (follows : edited.Follows pr) (evaluation : BranchProtectionEvaluation) :
      Touch print s { s with pulls := s.pulls.insert key (applyEvaluation edited evaluation) }
  | pullUpdated {s} {key : Scoped Nat} {pr : PullRequest} {request : UpdatePullRequestRequest}
      (found : s.pulls.lookup key = some pr) (within : print.touches (key.1, key.2.1))
      (asked : print.updates pr request) (now : DateTime)
      (evaluation : BranchProtectionEvaluation) :
      Touch print s { s with
        pulls := s.pulls.insert key (applyEvaluation (request.apply pr now) evaluation) }
  | pullMerged {s} {key : Scoped Nat} {pr : PullRequest} (found : s.pulls.lookup key = some pr)
      (within : print.touches (key.1, key.2.1)) (unmerged : pr.merged = false)
      (unclosed : pr.state ≠ .closed) (mergeSha : String) (now : DateTime) :
      Touch print s { s with pulls := s.pulls.insert key (mergedPull pr mergeSha now) }
  | reviewed {s} {pr : PullRequest} (review : Review)
      (found : s.pulls.lookup review.key = some pr)
      (within : print.touches (review.owner, review.repo)) (drawn : print.drawn review.id)
      (aimed : ∀ id, review.dismissedReviewId = some id →
        ∃ rows row, s.reviews.lookup review.key = some rows ∧ row ∈ rows ∧ row.id = id)
      (fresh : ∀ key rows, s.reviews.lookup key = some rows → ∀ row ∈ rows, row.id ≠ review.id)
      (granted : review.dismissalAuthority.isSome = true → print.dismisses) :
      Touch print s { s with reviews := s.reviews.push review.key review }
  | reviewCommented {s} {key : Scoped Nat} {pr : PullRequest} (comments : List ReviewComment)
      (found : s.pulls.lookup key = some pr) (within : print.touches (key.1, key.2.1))
      (own : ∀ comment ∈ comments, comment.key = key) :
      Touch print s { s with
        reviewComments := s.reviewComments.insert key
          ((s.reviewComments.lookup key).getD [] ++ comments) }
  | statusPushed {s} (status : CommitStatus) (may : print.creates (status.owner, status.repo))
      (within : print.touches (status.owner, status.repo)) :
      Touch print s { s with statuses := s.statuses.push status.key status }
  | checkRunPushed {s} (run : CheckRun) (may : print.creates run.slug)
      (within : print.touches run.slug) :
      Touch print s { s with checkRuns := s.checkRuns.push run.slug run }
  | emitted {s} (slug : Slug) (deliveries : List WebhookDelivery) (named : slug ∈ s.scopedSlugs)
      (own : ∀ delivery ∈ deliveries, delivery.slug = slug) :
      Touch print s { s with webhookDeliveries := s.webhookDeliveries ++ deliveries }
  | journalled {s} (may : print.journals) (repositoryTransfers) :
      Touch print s { s with repositoryTransfers }
  | deployed {s} (may : print.deploys) (deployments) : Touch print s { s with deployments }

/-- Records written one after the other. -/
abbrev Touches (print : Footprint) : State → State → Prop := Relation.ReflTransGen (Touch print)

/-- The aliases after a move: the slug left behind names the repository, the slug it took names
    nothing any more, and every other alias of the repository follows it. -/
structure State.Redirected (s : State) (old new : Slug) (id : Uuid)
    (aliases : HashMap Slug RepositoryAlias) : Prop where
  left : ∃ redirect, aliases.lookup old = some redirect ∧ redirect.repositoryId = id ∧
    redirect.canonical = new
  taken : aliases.lookup new = none
  others : ∀ slug, slug ≠ old → slug ≠ new →
    aliases.lookup slug = (s.repositoryAliases.lookup slug).map (retargeted id new)

/-- A repository comes, goes or moves. -/
inductive Shift (print : Footprint) : State → State → Prop where
  | created {s} (repo : Repository) (now : DateTime)
      (free : s.repos.lookup repo.slug = none) (drawn : print.drawn repo.id)
      (named : repo.fullName = slugText repo.slug) :
      Shift print s
        ({ s with
          counters := s.counters.insert repo.slug ⟨0, 0⟩
          repos := s.repos.insert repo.slug repo }.ensureDefaultBranchProtection
          repo now)
  | deleted {s} {slug : Slug} {repo : Repository} (found : s.repos.lookup slug = some repo)
      (may : print.drops) :
      Shift print s (s.withoutRepository slug.1 slug.2 repo.id)
  | relocated {s} {old new : Slug} {repo : Repository} (found : s.repos.lookup old = some repo)
      (free : s.repos.lookup new = none) (now : DateTime) {repositoryAliases}
      (redirected : s.Redirected old new repo.id repositoryAliases)
      (repositoryTransfers deployments) :
      Shift print s { s.rekeyed old new (movedRepository new now repo) with
        repositoryAliases, repositoryTransfers, deployments }

/-- What one section does to the state. -/
inductive Moves (print : Footprint) (s s' : State) : Prop where
  | touches (writes : Touches print s s')
  | shift (may : print.shifts) (moved : Shift print s s')

end Jeryu.Core
