import Jeryu.Core.Reviews

namespace Jeryu.Core

open Text

/-- Ordered `(glob, owners)` rules of a CODEOWNERS file; the last matching rule wins. -/
structure CodeOwners where
  rules : List (String × List String)

def CodeOwners.parseLine (line : String) : Option (String × List String) :=
  let line := trim line
  if line = "" || startsWith line "#" then none
  else match splitWhitespace line with
    | [] => none
    | pattern :: parts =>
      let owners := (parts.map fun owner => trimStartMatches owner (· = '@')).filter (· != "")
      some (pattern, owners)

def CodeOwners.parse (contents : String) : CodeOwners :=
  ⟨(lines contents).filterMap CodeOwners.parseLine⟩

def globMatch (pattern path : String) : Bool :=
  let path := trimStartMatches path (· = '/')
  if pattern = "*" then true
  else match stripPrefix pattern "*" with
    | some suffix => endsWith path suffix
    | none =>
      let pat := trimStartMatches pattern (· = '/')
      match stripSuffix pat "/**" with
      | some pre =>
        let pre := trimEndMatches pre (· = '/')
        path = pre || startsWith path (pre ++ "/")
      | none =>
        match stripSuffix pat "/" with
        | some pre => startsWith path (pre ++ "/") || path = pre
        | none => path = pat || startsWith path (pat ++ "/")

def CodeOwners.ownersFor (owners : CodeOwners) (path : String) : List String :=
  match owners.rules.reverse.find? fun rule => globMatch rule.1 path with
  | some rule => rule.2
  | none => []

/-- The members of a set of strings, in order. -/
def sortedSet (members : List String) : List String :=
  (members.insertionSort fun a b => !decide (b < a)).dedup

structure EvaluationContext where
  codeowners : Option String
  actorIsAdmin : Bool
  jankuraiProofMandatory : Bool

def BranchProtectionEvaluation.fromBlockers (blockers : List MergeBlocker) :
    BranchProtectionEvaluation where
  mergeable := blockers.isEmpty
  state := if blockers.isEmpty then "clean" else "blocked"
  blockers

inductive RequiredContextState where
  | satisfied
  | missing
  | failed
  deriving DecidableEq

/-- One required context for a merge into `baseRef`. A context some publisher pins to bases
    is answered by statuses alone. -/
def requiredContextState (context : String) (statuses : List CommitStatus)
    (checkRuns : List CheckRun) (baseRef : String) : RequiredContextState :=
  match currentStatusForBase statuses context baseRef with
  | some status => if status.state = .success then .satisfied else .failed
  | none =>
    if statuses.any fun status => status.context == context && status.base.isSome then .missing
    else match CheckRun.newest (checkRuns.filter fun check => check.name == context) with
      | some check =>
        if check.status = .completed && check.conclusion = some .success then .satisfied
        else .failed
      | none => .missing

def jankuraiProofBlockers (pr : PullRequest) (statuses : List CommitStatus)
    (checkRuns : List CheckRun) : List MergeBlocker :=
  match requiredContextState "jankurai/proof" statuses checkRuns pr.base.refName with
  | .satisfied => []
  | .missing | .failed => [.jankuraiProofRequired]

def statusCheckBlocker (pr : PullRequest) (statuses : List CommitStatus)
    (checkRuns : List CheckRun) (context : String) : Option MergeBlocker :=
  match requiredContextState context statuses checkRuns pr.base.refName with
  | .satisfied => none
  | .missing => some (.missingStatusCheck context)
  | .failed => some (.failedStatusCheck context)

/-- The gates that bind whatever the rule says. -/
def intrinsicBlockers (pr : PullRequest) (effective : List Review) (statuses : List CommitStatus)
    (checkRuns : List CheckRun) (requestedSha : Option String) (context : EvaluationContext) :
    List MergeBlocker :=
  let shaMismatch := match requestedSha with
    | some requested =>
      if requested != pr.head.sha then [.shaMismatch pr.head.sha requested] else []
    | none => []
  let changesRequested :=
    (effective.filter fun review => review.state = .changesRequested).map Review.author
  shaMismatch ++
  (if pr.draft then [.draftPullRequest] else []) ++
  (if changesRequested.isEmpty then [] else [.changesRequested changesRequested]) ++
  (if context.jankuraiProofMandatory then jankuraiProofBlockers pr statuses checkRuns else [])

def codeOwnerBlockers (pr : PullRequest) (effective : List Review) (codeowners : String) :
    List MergeBlocker :=
  let owners := CodeOwners.parse codeowners
  let approvers := (effective.filter fun review => review.state = .approved).map Review.author
  let unsatisfied := pr.changedFiles.filter fun path =>
    let pathOwners := owners.ownersFor path
    !pathOwners.isEmpty && !pathOwners.any approvers.contains
  if unsatisfied.isEmpty then []
  else [.missingCodeOwnerReview (sortedSet unsatisfied) (sortedSet (unsatisfied.flatMap owners.ownersFor))]

/-- The gates the rule configures. -/
def ruleBlockers (rule : BranchProtectionRule) (pr : PullRequest) (effective : List Review)
    (statuses : List CommitStatus) (checkRuns : List CheckRun) (context : EvaluationContext) :
    List MergeBlocker :=
  let approved := (effective.filter fun review => review.state = .approved).length
  let unsigned := (pr.commits.filter fun commit => !commit.verified).map PullRequestCommit.sha
  (if rule.requiredApprovingReviewCount > 0 && approved < rule.requiredApprovingReviewCount then
    [.missingReview rule.requiredApprovingReviewCount approved] else []) ++
  rule.requiredStatusChecks.filterMap (statusCheckBlocker pr statuses checkRuns) ++
  (if rule.requireJankuraiProof && !context.jankuraiProofMandatory then
    jankuraiProofBlockers pr statuses checkRuns else []) ++
  (if rule.requiredLinearHistory then
    match pr.commits.find? fun commit => commit.parents > 1 with
    | some mergeCommit => [.nonLinearHistory mergeCommit.sha]
    | none => []
  else []) ++
  (if rule.requireSignedCommits && !unsigned.isEmpty then [.unsignedCommits unsigned] else []) ++
  (match context.codeowners with
    | some codeowners => codeOwnerBlockers pr effective codeowners
    | none => [])

def evaluateBranchProtectionWith (pr : PullRequest) (protection : Option BranchProtectionRule)
    (reviews : List Review) (statuses : List CommitStatus) (checkRuns : List CheckRun)
    (requestedSha : Option String) (context : EvaluationContext) : BranchProtectionEvaluation :=
  let effective := effectiveReviewsForPullRequestWith reviews pr (.forRule protection)
  let intrinsic := intrinsicBlockers pr effective statuses checkRuns requestedSha context
  match protection with
  | none => .fromBlockers intrinsic
  | some rule =>
    if context.actorIsAdmin && !rule.enforceAdmins then .fromBlockers intrinsic
    else .fromBlockers (intrinsic ++ ruleBlockers rule pr effective statuses checkRuns context)

@[simp] theorem fromBlockers_mergeable (blockers : List MergeBlocker) :
    (BranchProtectionEvaluation.fromBlockers blockers).mergeable = blockers.isEmpty := rfl

@[simp] theorem fromBlockers_blockers (blockers : List MergeBlocker) :
    (BranchProtectionEvaluation.fromBlockers blockers).blockers = blockers := rfl

section Gates

variable {pr : PullRequest} {protection : Option BranchProtectionRule} {reviews : List Review}
variable {statuses : List CommitStatus} {checkRuns : List CheckRun} {requestedSha : Option String}
variable {context : EvaluationContext}

theorem evaluate_mergeable_iff :
    (evaluateBranchProtectionWith pr protection reviews statuses checkRuns requestedSha
      context).mergeable = true ↔
    (evaluateBranchProtectionWith pr protection reviews statuses checkRuns requestedSha
      context).blockers = [] := by
  unfold evaluateBranchProtectionWith
  cases protection with
  | none => simp
  | some rule =>
    dsimp only
    split <;> simp

theorem intrinsic_mem_blockers {blocker : MergeBlocker}
    (member : blocker ∈ intrinsicBlockers pr
      (effectiveReviewsForPullRequestWith reviews pr (.forRule protection)) statuses checkRuns
      requestedSha context) :
    blocker ∈ (evaluateBranchProtectionWith pr protection reviews statuses checkRuns requestedSha
      context).blockers := by
  unfold evaluateBranchProtectionWith
  cases protection with
  | none => exact member
  | some rule =>
    dsimp only
    split
    · exact member
    · exact List.mem_append_left _ member

/-- A requested sha other than the head is a blocker. -/
theorem shaMismatch_blocks {requested : String} (different : requested ≠ pr.head.sha) :
    .shaMismatch pr.head.sha requested ∈ (evaluateBranchProtectionWith pr protection reviews
      statuses checkRuns (some requested) context).blockers :=
  intrinsic_mem_blockers (by simp [intrinsicBlockers, different])

theorem draft_blocks (draft : pr.draft = true) :
    .draftPullRequest ∈ (evaluateBranchProtectionWith pr protection reviews statuses checkRuns
      requestedSha context).blockers :=
  intrinsic_mem_blockers (by simp [intrinsicBlockers, draft])

/-- An open gate has nothing to say against the pull request. -/
theorem evaluate_mergeable
    (mergeable : (evaluateBranchProtectionWith pr protection reviews statuses checkRuns requestedSha
      context).mergeable = true) :
    (evaluateBranchProtectionWith pr protection reviews statuses checkRuns requestedSha
      context).blockers = [] ∧ pr.draft = false ∧
      ∀ requested, requestedSha = some requested → pr.head.sha = requested := by
  have clear := evaluate_mergeable_iff.mp mergeable
  refine ⟨clear, ?_, ?_⟩
  · by_contra draft
    exact absurd (clear ▸ draft_blocks (by simpa using draft)) List.not_mem_nil
  · rintro requested rfl
    by_contra different
    exact absurd (clear ▸ shaMismatch_blocks (Ne.symm different)) List.not_mem_nil

end Gates

end Jeryu.Core
