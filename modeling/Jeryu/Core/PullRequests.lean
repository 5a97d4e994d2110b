import Jeryu.Core.MergeOverrides

namespace Jeryu.Core

open KeyedMap Text

def normalizeSourceRepository (owner repo : String) (sourceRepository : Option String) : String :=
  ((sourceRepository.map trim).filter (· != "")).getD s!"{owner}/{repo}"

def validatePatchIds (patchIds : List String) : Except ForgeError Unit :=
  if patchIds.length > maxCommits then
    .error (.validation s!"a diff identity covers at most {maxCommits} commits")
  else if patchIds.all isReviewPatchId then .ok ()
  else .error (.validation "patch ids must be v2-tagged SHA-256 digests")

def validateDiffBase (baseSha : String) : Except ForgeError Unit :=
  if (len baseSha == 40 || len baseSha == 64) && all baseSha isAsciiHexdigit then .ok ()
  else .error (.validation "base sha must be 40 or 64 hex digits")

/-- Whether any approval still stands at a head it was given at. -/
def standingApproval (reviews : List Review) : Bool :=
  let heads := (reviews.filter fun review => review.state = .approved).filterMap Review.headSha
  heads.any fun head => (effectiveReviewsForHead reviews head).any fun review =>
    review.state = .approved

structure HeadEvidence where
  baseSha : String
  patchIds : List String
  commits : Option (List PullRequestCommit)

structure MergeBase where
  baseRef : String
  baseSha : String

inductive MergeReadiness where
  | ready (baseRef baseSha headRef headSha : String) (requireLinearHistory : Bool)
  | alreadyMerged (sha : String)

/-- The base to hand back to `finalizeMerge`: exactly what the readiness disclosed. -/
def MergeReadiness.mergeBase : MergeReadiness → Option MergeBase
  | ready baseRef baseSha _ _ _ => some { baseRef, baseSha }
  | alreadyMerged _ => none

structure FinalizeBinding where
  mergeSha : String
  requestedSha : Option String
  base : MergeBase

/-- Neither merged nor closed, by the flag and by the state. -/
def PullRequest.isOpen (pr : PullRequest) : Bool :=
  !pr.merged && pr.state != .closed && pr.state != .merged

/-- The state the gate gives an open pull request. -/
def gateState (draft mergeable : Bool) : PullRequestState :=
  if draft then .draft else if mergeable then .mergeable else .blockedByChecks

/-- An open pull request has the state some evaluation gave it. -/
def PullRequest.Gated (pr : PullRequest) : Prop :=
  pr.isOpen = true → ∃ mergeable, pr.state = gateState pr.draft mergeable

theorem applyEvaluation_open (pr : PullRequest) (evaluation : BranchProtectionEvaluation) :
    (applyEvaluation pr evaluation).state =
      if pr.isOpen then gateState pr.draft evaluation.mergeable else pr.state := by
  unfold applyEvaluation PullRequest.isOpen gateState
  cases pr.merged
  · by_cases merged : pr.state = .merged <;> by_cases closed : pr.state = .closed <;>
      simp [merged, closed]
  · simp

theorem applyEvaluation_gated (pr : PullRequest) (evaluation : BranchProtectionEvaluation) :
    (applyEvaluation pr evaluation).Gated := by
  intro still
  have draft : (applyEvaluation pr evaluation).draft = pr.draft := by
    unfold applyEvaluation
    split
    · rfl
    · split <;> rfl
  by_cases before : pr.isOpen = true
  · rw [applyEvaluation_open, if_pos before, draft]
    exact ⟨evaluation.mergeable, rfl⟩
  · have same : applyEvaluation pr evaluation = { pr with
        mergeable := (applyEvaluation pr evaluation).mergeable
        mergeableState := (applyEvaluation pr evaluation).mergeableState } := by
      unfold applyEvaluation
      split
      · rfl
      · next unmerged =>
        split
        · rfl
        · next unclosed => simp_all [PullRequest.isOpen]
    rw [same] at still
    exact absurd still before

def pullEvent (action : String) (pr : PullRequest) : EventPayload :=
  ⟨action, "pull_request", .pullRequest pr⟩

def openedPull (owner repo author : String) (number : Nat) (id : Uuid) (now : DateTime)
    (request : CreatePullRequestRequest) : PullRequest where
  id
  owner
  repo
  number
  issueNumber := number
  title := request.title
  body := request.body
  state := if request.draft then .draft else .opened
  draft := request.draft
  author
  sourceRepository := normalizeSourceRepository owner repo request.sourceRepository
  head := .new request.head (request.headSha.getD s!"head-{number}")
  base := .new (normalizeBaseRef request.base) (request.baseSha.getD "base")
  mergeable := false
  mergeableState := "unknown"
  merged := false
  mergedAt := none
  mergeCommitSha := none
  commits := request.commits
  changedFiles := request.changedFiles
  headPatchIds := []
  createdAt := now
  updatedAt := now

def backingIssue (owner repo author : String) (number : Nat) (id : Uuid) (now : DateTime)
    (request : CreatePullRequestRequest) : Issue where
  id
  owner
  repo
  number
  title := request.title
  body := request.body
  state := .opened
  author
  labels := []
  assignees := []
  milestone := none
  comments := 0
  pullRequest := some
    { url := s!"/repos/{owner}/{repo}/pulls/{number}", htmlUrl := s!"/{owner}/{repo}/pull/{number}" }
  createdAt := now
  updatedAt := now
  closedAt := none

def createPullLocked (owner repo author : String) (request : CreatePullRequestRequest)
    (core : ForgeCore) : Outcome PullRequest :=
  -- A pull request is an issue: one number, one record pair.
  let (number, state) := core.state.nextRecordNumber owner repo
  let issue := backingIssue owner repo author number core.uuids core.now request
  let opened := openedPull owner repo author number (core.uuids + 1) core.now request
  let pr := applyEvaluation opened (state.evaluateLocked core.auditMergeEnforced opened none)
  let state := { state with
    issues := state.issues.insert (owner, repo, number) issue
    pulls := state.pulls.insert (owner, repo, number) pr }
  let next := state.emitEventLocked owner repo "pull_request" (pullEvent "opened" pr) core.now
  .commit [] 2 next none pr

def createPullRequest (owner repo author : String) (request : CreatePullRequestRequest) :
    Method PullRequest := do
  .ofExcept (requireName "pull request title" request.title)
  .ofExcept (requireName "head" request.head)
  .ofExcept (requireName "base" (normalizeBaseRef request.base))
  ensureRepositoryWritable owner repo
  let _ ← ensureUser author
  .locked (createPullLocked owner repo author request)

def ForgeCore.recomputed (core : ForgeCore) (pr : PullRequest) : PullRequest :=
  applyEvaluation pr (core.state.evaluateLocked core.auditMergeEnforced pr none)

def ForgeCore.pullRead (core : ForgeCore) (owner repo : String) (number : Nat) :
    Except ForgeError PullRequest :=
  match core.state.pulls.lookup (owner, repo, number) with
  | some pr => .ok (core.recomputed pr)
  | none => .error (.notFound s!"pull request {owner}/{repo}#{number}")

def getPullRequest (owner repo : String) (number : Nat) : Method PullRequest :=
  .reading fun core => core.pullRead owner repo number

/-- Store the edited pull request, re-evaluated, and announce it. -/
def storeEdited (core : ForgeCore) (key : Scoped Nat) (action : String) (edited : PullRequest) :
    PullRequest × State :=
  let evaluation := core.state.evaluateLocked core.auditMergeEnforced edited none
  let updated := applyEvaluation edited evaluation
  let state := { core.state with pulls := core.state.pulls.insert key updated }
  (updated, state.emitEventLocked key.1 key.2.1 "pull_request" (pullEvent action updated) core.now)

/-- The request's fields written over the stored pull request's. -/
def UpdatePullRequestRequest.apply (request : UpdatePullRequestRequest) (pr : PullRequest)
    (now : DateTime) : PullRequest :=
  let pr := { pr with
    title := request.title.getD pr.title
    body := request.body.or pr.body }
  let pr := match request.draft with
    | some draft => { pr with draft, state := if draft then .draft else .opened }
    | none => pr
  let pr := match request.state with
    | some state => { pr with state, draft := decide (state = PullRequestState.draft) }
    | none => pr
  { pr with
    commits := request.commits.getD pr.commits
    changedFiles := request.changedFiles.getD pr.changedFiles
    updatedAt := now }

def updatePullLocked (owner repo : String) (number : Nat) (request : UpdatePullRequestRequest)
    (core : ForgeCore) : Outcome PullRequest :=
  let key := (owner, repo, number)
  match core.state.pulls.lookup key with
  | none => .refuse (.notFound s!"pull request {owner}/{repo}#{number}")
  | some pr =>
    let (updated, next) := storeEdited core key "edited" (request.apply pr core.now)
    .commit [] 0 next none updated

def updatePullRequest (owner repo : String) (number : Nat) (request : UpdatePullRequestRequest) :
    Method PullRequest := do
  ensureRepositoryWritable owner repo
  match request.title with
  | some title => .ofExcept (requireName "pull request title" title)
  | none => pure ()
  .locked (updatePullLocked owner repo number request)

/-- The pull request at its new head. A diff identity and a commit range describe only a
    pull request recorded on the base they were computed for. -/
def HeadEvidence.apply (evidence : HeadEvidence) (headSha : String) (now : DateTime)
    (pr : PullRequest) : PullRequest :=
  let sameBase := eqIgnoreAsciiCase pr.base.sha evidence.baseSha
  { pr with
    commits := match evidence.commits with
      | some commits =>
        if sameBase then commits
        else if pr.head.sha != headSha then [{ sha := headSha, verified := false, parents := 2 }]
        else pr.commits
      | none => pr.commits
    head := { pr.head with sha := headSha }
    headPatchIds := if sameBase then evidence.patchIds else []
    updatedAt := now }

def refreshHead (core : ForgeCore) (headSha : String) (evidence : HeadEvidence)
    (progress : State × List PullRequest) (key : Scoped Nat) : State × List PullRequest :=
  match progress.1.pulls.lookup key with
  | none => progress
  | some pr =>
    let (updated, state) := storeEdited { core with state := progress.1 } key "synchronize"
      (evidence.apply headSha core.now pr)
    (state, progress.2 ++ [updated])

/-- The open pull requests of `owner/repo` from the branch. -/
def State.openPullsFrom (state : State) (owner repo refName : String) : List (Scoped Nat) :=
  (state.pulls.pairs.filter fun (_, pr) =>
    pr.owner == owner && pr.repo == repo && pr.head.refName == refName && pr.isOpen).map Prod.fst

def refreshHeadsLocked (owner repo refName headSha : String) (evidence : HeadEvidence)
    (core : ForgeCore) : Outcome (List PullRequest) :=
  let keys := core.state.openPullsFrom owner repo refName
  if keys.isEmpty then .unchanged []
  else
    let (state, updated) := keys.foldl (refreshHead core headSha evidence) (core.state, [])
    .commit [] 0 state none updated

def refreshPullRequestHeadsWithIdentity (owner repo refName headSha : String)
    (evidence : HeadEvidence) : Method (List PullRequest) := do
  ensureRepoExists owner repo
  .locked (refreshHeadsLocked owner repo refName headSha evidence)

def refreshPullRequestHeadsForRef (owner repo refName headSha : String) :
    Method (List PullRequest) :=
  refreshPullRequestHeadsWithIdentity owner repo refName headSha
    { baseSha := "", patchIds := [], commits := none }

def refreshPullRequestHeadsForRefWithDiff (owner repo refName headSha baseSha : String)
    (headPatchIds : List String) : Method (List PullRequest) := do
  .ofExcept (validatePatchIds headPatchIds)
  .ofExcept (validateDiffBase baseSha)
  if !headPatchIds.isEmpty then
    throw (.error (.validation "diff identities must be computed from repository objects"))
  refreshPullRequestHeadsWithIdentity owner repo refName headSha
    { baseSha, patchIds := [], commits := none }

/-- `validate_segment` of the git layer. -/
def validateSegment (name field : String) : Except ForgeError Unit :=
  if name = "" then .error (.validation s!"invalid path: {field} cannot be empty")
  else if name = "." || name = ".." then .error (.validation s!"invalid path: {field} cannot be {name}")
  else if name.toList.contains '/' || name.toList.contains '\\' || name.toList.contains '\x00' then
    .error (.validation s!"invalid path: {field} contains a path separator or NUL")
  else if startsWith name "-" then
    .error (.validation ("invalid path: " ++ field ++ " cannot start with '-'"))
  else .ok ()

/-- `RepoId::new` of the git layer: the owner, and the name without `.git`. -/
def repoId (owner name : String) : Except ForgeError Slug := do
  let name := (stripSuffix name ".git").getD name
  validateSegment owner "owner"
  validateSegment name "repo"
  return (owner, name)

/-- `patchIds` and `reviewCommits` are what git answers for the range. -/
def refreshPullRequestHeadsFromGit (owner repo refName headSha baseSha : String)
    (patchIds : Except String (List String))
    (reviewCommits : Except String (List PullRequestCommit)) : Method (List PullRequest) := do
  .ofExcept (validateDiffBase baseSha)
  let id ← .ofExcept (repoId owner repo)
  let ids ← .ofExcept (patchIds.mapError fun error =>
    .validation s!"cannot compute diff identity: {error}")
  .ofExcept (validatePatchIds ids)
  let commits ← .ofExcept (reviewCommits.mapError fun error =>
    .validation s!"cannot refresh commits: {error}")
  refreshPullRequestHeadsWithIdentity id.1 id.2 refName headSha
    { baseSha, patchIds := ids, commits := some commits }

def RetargetPullRequestRequest.apply (request : RetargetPullRequestRequest) (base : String)
    (now : DateTime) (pr : PullRequest) : PullRequest :=
  { pr with
    base := .new base request.baseSha
    commits := request.commits
    changedFiles := request.changedFiles
    -- The recorded identity was computed against the old base.
    headPatchIds := []
    updatedAt := now }

def retargetLocked (actor owner repo : String) (number : Nat) (base : String)
    (request : RetargetPullRequestRequest) (core : ForgeCore) : Outcome PullRequest :=
  let key := (owner, repo, number)
  let subject := s!"{owner}/{repo}#{number}"
  match core.state.pulls.lookup key with
  | none => .refuse (.notFound s!"pull request {subject}")
  | some pr =>
    if !pr.isOpen then .refuse (.conflict s!"pull request {subject} is not open")
    else if pr.head.sha ≠ request.headSha then
      .refuse (.conflict s!"pull request {subject} head changed")
    else if (pr.sourceRepository = "" || pr.sourceRepository = s!"{owner}/{repo}") &&
        pr.head.refName = base then
      .refuse (.validation s!"{base} is the head branch of pull request {subject}")
    else if standingApproval ((core.state.reviews.lookup key).getD []) then
      .refuse (.conflict
        s!"pull request {subject} has approvals given against its current base; its reviewers must dismiss them before a retarget, or open a new pull request against the new base")
    else
      let (updated, next) := storeEdited core key "edited" (request.apply base core.now pr)
      let receipt : AuditEntry :=
        { occurredAt := core.now, actor, action := "pull_request.retargeted"
          subject := s!"{owner}/{repo}", phase := .completed, detail := .other (.object []) }
      .commit [] 0 next (some receipt) updated

def retargetPullRequest (actor owner repo : String) (number : Nat)
    (request : RetargetPullRequestRequest) (branches : RepoBranches) : Method PullRequest := do
  let base := normalizeBaseRef request.base
  .ofExcept (requireName "base" base)
  .ofExcept (validateDiffBase request.baseSha)
  if eqIgnoreAsciiCase request.baseSha request.headSha then
    throw (.error (.validation "base sha must not be the head: that diff is empty"))
  if request.commits.isEmpty || request.changedFiles.isEmpty then
    throw (.error (.validation
      "a retarget must carry the commit range and changed paths for its new base"))
  if isBlank actor then throw (.error (.validation "audit actor cannot be empty"))
  ensureRepositoryWritable owner repo
  if !(← .ofExcept (branches.branchExists owner repo base)) then
    throw (.error (.validation s!"base branch {base} does not exist in {owner}/{repo}"))
  .locked (retargetLocked actor owner repo number base request)

/-- The second component says whether anything moved. -/
def recordBaseLocked (owner repo : String) (number : Nat) (headSha baseSha : String)
    (core : ForgeCore) : Outcome (PullRequest × Bool) :=
  let key := (owner, repo, number)
  let subject := s!"{owner}/{repo}#{number}"
  match core.state.pulls.lookup key with
  | none => .refuse (.notFound s!"pull request {subject}")
  | some pr =>
    if !pr.isOpen then .refuse (.conflict s!"pull request {subject} is not open")
    else if pr.head.sha ≠ headSha then .refuse (.conflict s!"pull request {subject} head changed")
    else if pr.base.sha = baseSha then .unchanged (pr, false)
    else
      let edited := { pr with
        base := { pr.base with sha := baseSha }, headPatchIds := [], updatedAt := core.now }
      let (updated, next) := storeEdited core key "edited" edited
      .commit [] 0 next none (updated, true)

def recordPullRequestBase (actor owner repo : String) (number : Nat) (headSha baseSha : String) :
    Method PullRequest := do
  .ofExcept (validateDiffBase baseSha)
  if eqIgnoreAsciiCase baseSha headSha then
    throw (.error (.validation "base sha must not be the head: that diff is empty"))
  ensureRepoExists owner repo
  ensureRepositoryWritable owner repo
  let (updated, moved) ← .locked (recordBaseLocked owner repo number headSha baseSha)
  if moved then
    appendAuditAs actor "pull_request.base_recorded" s!"{owner}/{repo}" .completed
  return updated

def mergeReadiness (owner repo : String) (number : Nat) (requestedSha : Option String)
    (core : ForgeCore) : Except ForgeError MergeReadiness :=
  match core.state.pulls.lookup (owner, repo, number) with
  | none => .error (.notFound s!"pull request {owner}/{repo}#{number}")
  | some pr =>
    if pr.merged then .ok (.alreadyMerged (pr.mergeCommitSha.getD pr.head.sha))
    else if pr.state = .closed then
      .error (.validation "closed pull requests cannot be merged")
    else
      let evaluation := core.state.evaluateLocked core.auditMergeEnforced pr requestedSha
      if !evaluation.mergeable then .error (.blocked evaluation.blockers)
      else
        let rule := core.state.branchProtections.lookup (owner, repo, pr.base.refName)
        .ok (.ready pr.base.refName pr.base.sha pr.head.refName pr.head.sha
          (rule.any BranchProtectionRule.requiredLinearHistory))

/-- The read-only half of the two-phase merge. -/
def evaluateMergeReadiness (owner repo : String) (number : Nat) (requestedSha : Option String) :
    Method MergeReadiness :=
  .reading (mergeReadiness owner repo number requestedSha)

/-- What decides, under the write lock, that the merge may be recorded. -/
def finalizeGate (core : ForgeCore) (owner repo : String) (pr : PullRequest)
    (permit : Option MergeOverridePermit) (evaluation : BranchProtectionEvaluation) :
    Except ForgeError Unit :=
  match permit with
  | none => if evaluation.mergeable then .ok () else .error (.blocked evaluation.blockers)
  | some permit =>
    match validateOverride core.state pr permit.actor with
    | .error error => .error error
    | .ok () =>
      if DateTime.timestamp core.now > permit.expiresAt then
        .error (.conflict "merge override permit expired")
      else match validateOverrideEvaluation core.state pr permit.actor permit.protection evaluation with
        | .error error => .error error
        | .ok evidence =>
          if evidence ≠ permit.statusEvidence then
            .error (.conflict "override status evidence changed")
          else if pr.head.sha ≠ permit.headSha ∨ pr.base.sha ≠ permit.baseSha ∨
              evaluation ≠ permit.evaluation ∨
              core.state.branchProtections.lookup (owner, repo, pr.base.refName) ≠
                some permit.protection then
            .error (.conflict "merge override gate changed; refresh and record a new decision")
          else .ok ()

def mergedPull (pr : PullRequest) (mergeSha : String) (now : DateTime) : PullRequest :=
  { pr with
    merged := true
    state := .merged
    mergeable := false
    mergeableState := "merged"
    mergedAt := some now
    mergeCommitSha := some mergeSha
    updatedAt := now }

def State.closeIssue (state : State) (key : Scoped Nat) (now : DateTime) : State :=
  match state.issues.lookup key with
  | some issue =>
    let closed := { issue with state := .closed, closedAt := some now, updatedAt := now }
    { state with issues := state.issues.insert key closed }
  | none => state

/-- The state that records the merge. -/
def recordMerge (core : ForgeCore) (key : Scoped Nat) (pr : PullRequest) (mergeSha : String) : State :=
  let merged := mergedPull pr mergeSha core.now
  let state := { core.state with pulls := core.state.pulls.insert key merged }
  let state := state.closeIssue (key.1, key.2.1, pr.issueNumber) core.now
  state.emitEventLocked key.1 key.2.1 "pull_request" (pullEvent "closed" merged) core.now

/-- The receipt that goes into the transaction of the merge. -/
def MergeOverridePermit.completedReceipt (permit : MergeOverridePermit) (mergeSha : String)
    (now : DateTime) : AuditEntry :=
  { occurredAt := now, actor := permit.actor, action := mergeOverrideAction
    subject := permit.subject, phase := .completed, detail := permit.auditDetail (some mergeSha) }

def finalizeLocked (owner repo : String) (number : Nat) (binding : FinalizeBinding)
    (permit : Option MergeOverridePermit) (core : ForgeCore) : Outcome MergeResult :=
  let key := (owner, repo, number)
  let subject := s!"{owner}/{repo}#{number}"
  match core.state.pulls.lookup key with
  | none => .refuse (.notFound s!"pull request {subject}")
  | some pr =>
    if pr.merged then
      match permit with
      | some _ => .refuse (.conflict "override target already merged")
      | none => .unchanged
          { sha := pr.mergeCommitSha.getD binding.mergeSha, merged := true
            message := "Pull Request already merged" }
    else if pr.state = .closed then .refuse (.validation "closed pull requests cannot be merged")
    else if pr.base.refName ≠ binding.base.baseRef ∨ pr.base.sha ≠ binding.base.baseSha then
      .refuse (.conflict s!"pull request {subject} base changed since readiness; re-evaluate")
    else
      let evaluation := core.state.evaluateLocked core.auditMergeEnforced pr binding.requestedSha
      match finalizeGate core owner repo pr permit evaluation with
      | .error error => .refuse error
      | .ok () =>
        let next := recordMerge core key pr binding.mergeSha
        let result := { sha := binding.mergeSha, merged := true
                        message := "Pull Request successfully merged" }
        match permit with
        | none => .commit [] 0 next none result
        | some permit =>
          if core.storage.isNone then
            .refuse (.validation "merge override requires durable audit storage")
          else
            .commit [] 0 next (some (permit.completedReceipt binding.mergeSha core.now)) result

def finalizeMergeChecked (owner repo : String) (number : Nat) (binding : FinalizeBinding)
    (permit : Option MergeOverridePermit) : Method MergeResult := do
  ensureRepositoryWritable owner repo
  .locked (finalizeLocked owner repo number binding permit)

/-- The commit half of the two-phase merge. -/
def finalizeMerge (owner repo : String) (number : Nat) (mergeSha : String)
    (requestedSha : Option String) (base : MergeBase) : Method MergeResult :=
  finalizeMergeChecked owner repo number { mergeSha, requestedSha, base } none

def MergeOverridePermit.binding (permit : MergeOverridePermit) (mergeSha : String) : FinalizeBinding where
  mergeSha
  requestedSha := some permit.headSha
  base := { baseRef := permit.protection.branch, baseSha := permit.baseSha }

def finalizeMergeWithOverride (permit : MergeOverridePermit) (mergeSha : String) :
    Method MergeResult :=
  (finalizeMergeChecked permit.owner permit.repo permit.number (permit.binding mergeSha)
    (some permit)).inspect fun
    | .ok _ => return ()
    | .error _ =>
      let receipt := appendAuditAs permit.actor mergeOverrideAction permit.subject .failed
      receipt.orIgnored receipt

/-- The merge without a git backend: readiness, then a synthetic merge sha. -/
def mergePullRequest (owner repo : String) (number : Nat) (sha : Option String) :
    Method MergeResult := do
  ensureRepositoryWritable owner repo
  match ← evaluateMergeReadiness owner repo number sha with
  | .alreadyMerged sha => return { sha, merged := true, message := "Pull Request already merged" }
  | .ready baseRef baseSha _ headSha _ =>
    finalizeMerge owner repo number s!"merge-{headSha}-{number}" sha { baseRef, baseSha }

end Jeryu.Core
