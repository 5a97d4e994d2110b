import Jeryu.Core.Accounts

namespace Jeryu.Core

open KeyedMap Text

def SetBranchProtectionRequest.rule (request : SetBranchProtectionRequest)
    (owner repo branch : String) (now : DateTime) : BranchProtectionRule where
  owner
  repo
  branch
  requiredStatusChecks := request.requiredStatusChecks
  strict := request.strict
  requiredApprovingReviewCount := request.requiredApprovingReviewCount
  allowMergeOverride := request.allowMergeOverride
  allowAdminReviewDismissal := request.allowAdminReviewDismissal
  mergeOverrideStatusChecks := request.mergeOverrideStatusChecks
  mergeOverrideStatusCreators := request.mergeOverrideStatusCreators
  enforceAdmins := request.enforceAdmins
  requiredLinearHistory := request.requiredLinearHistory
  allowForcePushes := request.allowForcePushes
  allowDeletions := request.allowDeletions
  requireSignedCommits := request.requireSignedCommits
  requireJankuraiProof := request.requireJankuraiProof
  dismissStaleApprovals := request.dismissStaleApprovals
  requireExactShaApproval := request.requireExactShaApproval
  updatedAt := now

def setProtectionLocked (rule : BranchProtectionRule) (core : ForgeCore) :
    Outcome BranchProtectionRule :=
  let key := (rule.owner, rule.repo, rule.branch)
  let branchProtections := core.state.branchProtections.insert key rule
  .commit [] 0 { core.state with branchProtections } none rule

def setBranchProtection (owner repo branch : String) (request : SetBranchProtectionRequest) :
    Method BranchProtectionRule := do
  ensureRepoExists owner repo
  .ofExcept (requireName "branch" branch)
  let now ← utcNow
  .locked (setProtectionLocked (request.rule owner repo branch now))

/-- The default branch's rule may be removed only when the repository opted out and no rule
    requires a status context. -/
def State.defaultRuleIsMandatory (state : State) (repo : Repository) : Bool :=
  !repo.defaultBranchProtectionOptOut || state.repoRequiresStatusContext repo.owner repo.name

/-- What the deletion section found. -/
inductive RuleDeletion where
  | mandatory
  | removed (rule : BranchProtectionRule)

def deleteProtectionLocked (owner repo branch : String) (core : ForgeCore) : Outcome RuleDeletion :=
  match core.state.repos.lookup (owner, repo) with
  | none => .refuse (.notFound s!"repository {owner}/{repo}")
  | some live =>
    if live.archived then .refuse (.repositoryArchived s!"{owner}/{repo}")
    else if live.defaultBranch = branch && core.state.defaultRuleIsMandatory live then
      .unchanged .mandatory
    else match core.state.branchProtections.lookup (owner, repo, branch) with
      | none => .refuse (.notFound s!"branch protection {owner}/{repo}:{branch}")
      | some removed =>
        let branchProtections := core.state.branchProtections.erase (owner, repo, branch)
        .commit [] 0 { core.state with branchProtections } none (.removed removed)

def deleteBranchProtection (actor owner repo branch : String) : Method BranchProtectionRule := do
  let current ← canonicalRepository owner repo
  let owner := current.owner
  let repo := current.name
  ensureRepositoryWritable owner repo
  let subject := s!"{owner}/{repo}"
  match ← Method.locked (deleteProtectionLocked owner repo branch) with
  | .mandatory =>
    appendAuditAs actor "branch_protection.deleted" subject .failed
    throw (.error (.validation
      s!"{branch} is the default branch of {owner}/{repo} and its protection is mandatory; opt the repository out of default branch protection first (refused while any rule requires a status context)"))
  | .removed removed =>
    appendAuditAs actor "branch_protection.deleted" subject .completed
    return removed

def hasEncodedSlash (branch : String) : Bool := contains (toAsciiLowercase branch) "%2f"

def decodeSlashChars : List Char → List Char
  | '%' :: '2' :: c :: rest =>
    if c = 'f' || c = 'F' then '/' :: decodeSlashChars rest
    else '%' :: decodeSlashChars ('2' :: c :: rest)
  | c :: rest => c :: decodeSlashChars rest
  | [] => []

def decodeSlashes (branch : String) : String := String.ofList (decodeSlashChars branch.toList)

structure EncodedProtectionReport where
  rekeyed : List (Scoped String)
  removed : List (Scoped String)
  kept : List (Scoped String × String)

structure PlannedRekey where
  key : Scoped String
  seen : BranchProtectionRule
  decoded : String
  encodedExists : Bool
  decodedExists : Bool

inductive RekeyDecision where
  | rekey
  | remove
  | keep (reason : String)

def PlannedRekey.target (step : PlannedRekey) : Scoped String :=
  (step.key.1, step.key.2.1, step.decoded)

/-- Decides one planned re-key against the live state, write lock held. -/
def decideRekey (state : State) (step : PlannedRekey) : RekeyDecision :=
  if state.branchProtections.lookup step.key ≠ some step.seen then .keep "rule changed since planning"
  else match state.repos.lookup (step.key.1, step.key.2.1) with
    | none => .keep "repository not found"
    | some repository =>
      if repository.archived then .keep "repository archived"
      else if repository.defaultBranch = step.key.2.2 then .keep "default branch"
      else if step.encodedExists then .keep "encoded name is a real branch"
      else if !step.decodedExists then .keep "decoded branch does not exist"
      else if (state.branchProtections.lookup step.target).isNone then .rekey
      else if !step.seen.requiredStatusChecks.isEmpty then .keep "duplicate requires status checks"
      else .remove

/-- A decision to change a rule, and what it was taken on. -/
theorem decideRekey_change {state : State} {step : PlannedRekey}
    (changed : decideRekey state step = .rekey ∨ decideRekey state step = .remove) :
    ∃ repository, state.repos.lookup (step.key.1, step.key.2.1) = some repository ∧
      repository.archived = false ∧ repository.defaultBranch ≠ step.key.2.2 ∧
      state.branchProtections.lookup step.key = some step.seen := by
  unfold decideRekey at changed
  split at changed
  · simp at changed
  · next seen =>
    split at changed
    · simp at changed
    · next repository live =>
      split at changed
      · simp at changed
      · next unarchived =>
        split at changed
        · simp at changed
        · next ordinary =>
          exact ⟨repository, live, by simpa using unarchived, ordinary, by simpa using seen⟩

theorem decideRekey_free {state : State} {step : PlannedRekey}
    (rekeyed : decideRekey state step = .rekey) :
    state.branchProtections.lookup step.target = none := by
  unfold decideRekey at rekeyed
  repeat' split at rekeyed
  all_goals try cases rekeyed
  next free => simpa using free

structure Rekeying where
  state : State
  report : EncodedProtectionReport
  /-- The slug and branch of each changed rule. -/
  changes : List (Scoped String)

def rekeyStep (progress : Rekeying) (step : PlannedRekey) : Rekeying :=
  let ⟨state, report, changes⟩ := progress
  match decideRekey state step with
  | .keep reason =>
    { progress with report := { report with kept := report.kept ++ [(step.key, reason)] } }
  | .remove =>
    { state := { state with branchProtections := state.branchProtections.erase step.key }
      report := { report with removed := report.removed ++ [step.key] }
      changes := changes ++ [step.key] }
  | .rekey =>
    let rule := { step.seen with branch := step.decoded }
    { state := { state with
        branchProtections := (state.branchProtections.erase step.key).insert step.target rule }
      report := { report with rekeyed := report.rekeyed ++ [step.key] }
      changes := changes ++ [step.key] }

def rekeyEncodedLocked (plan : List PlannedRekey) (core : ForgeCore) :
    Outcome (EncodedProtectionReport × List (Scoped String)) :=
  let done := plan.foldl rekeyStep ⟨core.state, ⟨[], [], []⟩, []⟩
  if done.changes.isEmpty then .unchanged (done.report, [])
  else .commit [] 0 done.state none (done.report, done.changes)

def planRekeys (branches : RepoBranches) :
    List (Scoped String × BranchProtectionRule) → Except ForgeError (List PlannedRekey)
  | [] => .ok []
  | (key, seen) :: rest => do
    let decoded := decodeSlashes key.2.2
    let encodedExists ← branches.branchExists key.1 key.2.1 key.2.2
    let decodedExists ← branches.branchExists key.1 key.2.1 decoded
    let plan ← planRekeys branches rest
    return { key, seen, decoded, encodedExists, decodedExists } :: plan

/-- A step of the plan, and the encoded name it reads. -/
def PlannedRekey.Spells (step : PlannedRekey) : Prop :=
  hasEncodedSlash step.key.2.2 = true ∧ step.decoded = decodeSlashes step.key.2.2

theorem planRekeys_spells {branches : RepoBranches}
    {encoded : List (Scoped String × BranchProtectionRule)} {plan : List PlannedRekey}
    (planned : planRekeys branches encoded = .ok plan)
    (names : ∀ entry ∈ encoded, hasEncodedSlash entry.1.2.2 = true) :
    ∀ step ∈ plan, step.Spells := by
  induction encoded generalizing plan with
  | nil =>
    cases planned
    exact fun step member => nomatch member
  | cons entry rest ih =>
    obtain ⟨key, seen⟩ := entry
    simp only [planRekeys] at planned
    cases there : branches.branchExists key.1 key.2.1 key.2.2 with
    | error error =>
      rw [there] at planned
      cases planned
    | ok encodedExists =>
      rw [there] at planned
      cases decoded : branches.branchExists key.1 key.2.1 (decodeSlashes key.2.2) with
      | error error =>
        simp only [bind, Except.bind, decoded] at planned
        cases planned
      | ok decodedExists =>
        simp only [bind, Except.bind, decoded] at planned
        cases later : planRekeys branches rest with
        | error error =>
          rw [later] at planned
          cases planned
        | ok steps =>
          rw [later] at planned
          cases planned
          intro step member
          rcases List.mem_cons.mp member with rfl | member
          · exact ⟨names (key, seen) List.mem_cons_self, rfl⟩
          · exact ih later (fun entry inside => names entry (List.mem_cons_of_mem _ inside)) step member

def auditRekeys (actor : String) : List (Scoped String) → Method Unit
  | [] => return ()
  | key :: rest => do
    appendAuditAs actor "branch_protection.encoded_rekey" s!"{key.1}/{key.2.1}" .completed
    auditRekeys actor rest

def rekeyEncodedBranchProtections (actor : String) (branches : RepoBranches) :
    Method EncodedProtectionReport := do
  requireGlobalAdmin actor
  let encoded ← Method.reading fun core =>
    .ok (core.state.branchProtections.pairs.filter fun (key, _) => hasEncodedSlash key.2.2)
  let plan ← .ofExcept (planRekeys branches encoded)
  if plan.isEmpty then return ⟨[], [], []⟩
  let (report, changes) ← Method.locked (rekeyEncodedLocked plan)
  auditRekeys actor changes
  return report

def setCodeownersLocked (owner repo contents : String) (core : ForgeCore) : Outcome Unit :=
  let codeowners := core.state.codeowners.insert (owner, repo) contents
  .commit [] 0 { core.state with codeowners } none ()

def setCodeowners (owner repo contents : String) : Method Unit := do
  ensureRepoExists owner repo
  .locked (setCodeownersLocked owner repo contents)

end Jeryu.Core
