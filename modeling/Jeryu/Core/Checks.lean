import Jeryu.Core.Accounts

namespace Jeryu.Core

open KeyedMap Text

def createStatusLocked (owner repo sha creator : String) (request : CreateCommitStatusRequest)
    (base : Option String) (now : DateTime) (core : ForgeCore) : Outcome CommitStatus :=
  let status : CommitStatus :=
    { id := core.uuids, owner, repo, sha, state := request.state, context := request.context, base
      description := request.description, targetUrl := request.targetUrl, creator
      createdAt := now, updatedAt := now }
  let state := { core.state with statuses := core.state.statuses.push (owner, repo, sha) status }
  let state := state.refreshPullMergeabilityForSha core.auditMergeEnforced owner repo sha
  let next := state.emitEventLocked owner repo "status" ⟨"created", "status", .status status⟩ core.now
  .commit [] 1 next none status

def createCommitStatus (owner repo sha creator : String) (request : CreateCommitStatusRequest) :
    Method CommitStatus := do
  .ofExcept (requireName "sha" sha)
  -- A blank base is "no base stated".
  let base := (request.base.map normalizeBaseRef).filter (· != "")
  ensureRepositoryWritable owner repo
  let _ ← ensureUser creator
  let now ← utcNow
  .locked (createStatusLocked owner repo sha creator request base now)

def createCheckRunLocked (owner repo : String) (request : CreateCheckRunRequest)
    (core : ForgeCore) : Outcome CheckRun :=
  let completed := request.status = some .completed || request.conclusion.isSome
  let runs := (core.state.checkRuns.lookup (owner, repo)).getD []
  let checkRun : CheckRun :=
    { id := core.uuids, owner, repo, name := request.name, headSha := request.headSha
      status := request.status.getD (if completed then .completed else .queued)
      conclusion := request.conclusion, detailsUrl := request.detailsUrl, output := request.output
      startedAt := core.now, completedAt := if completed then some core.now else none
      creationSequence := (runs.map CheckRun.creationSequence).max?.getD 0 + 1 }
  let state := { core.state with checkRuns := core.state.checkRuns.push (owner, repo) checkRun }
  let state := state.refreshPullMergeabilityForSha core.auditMergeEnforced owner repo
    checkRun.headSha
  let next := state.emitEventLocked owner repo "check_run"
    ⟨"created", "check_run", .checkRun checkRun⟩ core.now
  .commit [] 1 next none checkRun

def createCheckRun (owner repo : String) (request : CreateCheckRunRequest) : Method CheckRun := do
  .ofExcept (requireName "check run name" request.name)
  .ofExcept (requireName "head sha" request.headSha)
  ensureRepositoryWritable owner repo
  .locked (createCheckRunLocked owner repo request)

/-- Retained score records per branch. -/
def maxScoresPerBranch : Nat := 200

/-- Drop the first of the branch's oldest records. -/
def evictOldest (branch : String) (scores : List JankuraiScore) : List JankuraiScore :=
  match ((scores.filter fun score => score.branch == branch).map JankuraiScore.createdAt).min? with
  | some oldest => scores.eraseP fun score => score.branch == branch && score.createdAt == oldest
  | none => scores

/-- Evict until at most `maxScoresPerBranch` are left; each round drops one, so the length of
    the list is fuel enough. -/
def trimScores (branch : String) : Nat → List JankuraiScore → List JankuraiScore
  | 0, scores => scores
  | fuel + 1, scores =>
    if (scores.filter fun score => score.branch == branch).length > maxScoresPerBranch then
      trimScores branch fuel (evictOldest branch scores)
    else scores

theorem trimScores_subset {branch : String} {fuel : Nat} {scores : List JankuraiScore} :
    trimScores branch fuel scores ⊆ scores := by
  induction fuel generalizing scores with
  | zero => exact List.Subset.refl _
  | succ fuel ih =>
    unfold trimScores
    split
    · refine List.Subset.trans ih ?_
      unfold evictOldest
      split
      · exact List.eraseP_subset
      · exact List.Subset.refl _
    · exact List.Subset.refl _

theorem evictOldest_ne_nil {branch : String} {scores : List JankuraiScore}
    (many : scores.length > 1) : evictOldest branch scores ≠ [] := by
  have kept : (evictOldest branch scores).length ≥ scores.length - 1 := by
    unfold evictOldest
    split
    · rw [List.length_eraseP]
      split <;> omega
    · omega
  intro empty
  rw [empty, List.length_nil] at kept
  omega

theorem trimScores_ne_nil {branch : String} {fuel : Nat} {scores : List JankuraiScore}
    (filled : scores ≠ []) : trimScores branch fuel scores ≠ [] := by
  induction fuel generalizing scores with
  | zero => exact filled
  | succ fuel ih =>
    unfold trimScores
    split
    · next full =>
      have shorter := List.length_filter_le (fun score : JankuraiScore => score.branch == branch) scores
      exact ih (evictOldest_ne_nil (by unfold maxScoresPerBranch at full; omega))
    · exact filled

def recordScoreLocked (record : Uuid → JankuraiScore) (core : ForgeCore) : Outcome JankuraiScore :=
  let record := record core.uuids
  let key := (record.owner, record.repo)
  let others := ((core.state.jankuraiScores.lookup key).getD []).filter fun existing =>
    !(existing.branch == record.branch && existing.commitSha == record.commitSha)
  let scores := others ++ [record]
  let jankuraiScores := core.state.jankuraiScores.insert key
    (trimScores record.branch scores.length scores)
  .commit [] 1 { core.state with jankuraiScores } none record

def recordJankuraiScore (owner repo : String) (request : RecordJankuraiScoreRequest) :
    Method JankuraiScore := do
  .ofExcept (requireName "branch" request.branch)
  .ofExcept (requireName "commit sha" request.commitSha)
  .ofExcept (requireName "decision" request.decision)
  match request.score with
  | some score => if score > 100 then throw (.error (.validation s!"score must be 0-100, got {score}"))
  | none => pure ()
  ensureRepoExists owner repo
  let reportJson := match request.report, request.toolExit with
    | some report, _ => some report
    | none, some exit => some ("\x7b\"tool_exit\":" ++ toString exit ++ "\x7d")
    | none, none => none
  let now ← utcNow
  .locked (recordScoreLocked fun id =>
    { id, owner, repo, branch := trim request.branch, commitSha := trim request.commitSha
      score := request.score, hardFindings := request.hardFindings.getD 0
      decision := trim request.decision, capsApplied := request.capsApplied, reportJson
      createdAt := now })

def createWebhookLocked (owner repo : String) (request : CreateWebhookRequest) (now : DateTime)
    (core : ForgeCore) : Outcome Webhook :=
  let hook : Webhook :=
    { id := core.uuids, owner, repo, name := request.name, active := request.active
      events := request.events, config := request.config, createdAt := now, updatedAt := now }
  let webhooks := core.state.webhooks.push (owner, repo) hook
  .commit [] 1 { core.state with webhooks } none hook

def createWebhook (owner repo : String) (request : CreateWebhookRequest) : Method Webhook := do
  ensureRepoExists owner repo
  .ofExcept (requireName "webhook url" request.config.url)
  let now ← utcNow
  .locked (createWebhookLocked owner repo request now)

def setReadmeLocked (owner repo markdown : String) (core : ForgeCore) : Outcome String :=
  let readmes := core.state.readmes.insert (owner, repo) markdown
  .commit [] 0 { core.state with readmes } none markdown

def setRepositoryReadme (owner repo markdown : String) : Method String := do
  ensureRepoExists owner repo
  .locked (setReadmeLocked owner repo markdown)

end Jeryu.Core
