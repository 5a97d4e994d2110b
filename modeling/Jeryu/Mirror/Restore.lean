import Jeryu.Library.SortedSet
import Jeryu.Mirror.Bundle

/-!
A restore, and the dry run before it. The checks of a repository come right before its writes, so
that a later repository may be refused when earlier ones are already there.
-/

namespace Jeryu.Mirror

open SortedSet

structure RestoreOptions where
  dryRun : Bool
  requireEmptyTarget : Bool
  restoreWebhooks : Bool
  restoreAppInstallations : Bool
  restoreJeryuArtifactMetadata : Bool

structure RestoreReport where
  dryRun : Bool
  repositoriesPlanned : Nat
  issuesPlanned : Nat
  pullRequestsPlanned : Nat
  releasesPlanned : Nat
  artifactsPlanned : Nat
  webhooksPlanned : Nat
  appInstallationsPlanned : Nat
  protectedBranchesPlanned : Nat
  secretRehydrationRequired : List String
  commands : List String
  blockers : List String
  deriving DecidableEq

def RestoreReport.default : RestoreReport := ⟨false, 0, 0, 0, 0, 0, 0, 0, 0, [], [], []⟩

/-- A broken invariant of the archive, or what an operation of the target answers. -/
inductive RestoreError where
  | restoreInvariant (message : String)
  | target (message : String)
  deriving DecidableEq

/-- An operation of a target may fail, having changed something or not. -/
abbrev Write (T : Type) := T → Except String Unit × T

/-- A place to restore to. What is written to one repository does not bring another one about. -/
structure RestoreTarget (T : Type) where
  hasRepository : T → String → String → Bool
  createRepository : RepositoryArchive → Write T
  createIssue : RepositoryArchive → NormalizedIssue → Write T
  createPullRequest : RepositoryArchive → NormalizedPullRequest → Write T
  createRelease : RepositoryArchive → ReleaseArchive → Write T
  recordArtifact : RepositoryArchive → ArtifactMetadata → Write T
  createProtectedBranch : RepositoryArchive → ProtectedBranchArchive → Write T

namespace RestoreTarget

variable {T : Type} (target : RestoreTarget T)

/-- The write leaves alone which other repositories there are. -/
def Keeps (repo : RepositoryArchive) (write : Write T) : Prop := ∀ t owner name, owner ++ "/" ++ name ≠ repo.fullName →
  target.hasRepository (write t).2 owner name = target.hasRepository t owner name

structure Apart : Prop where
  repository : ∀ repo, target.Keeps repo (target.createRepository repo)
  issue : ∀ repo issue, target.Keeps repo (target.createIssue repo issue)
  pullRequest : ∀ repo pr, target.Keeps repo (target.createPullRequest repo pr)
  release : ∀ repo release, target.Keeps repo (target.createRelease repo release)
  artifact : ∀ repo artifact, target.Keeps repo (target.recordArtifact repo artifact)
  protectedBranch : ∀ repo branch, target.Keeps repo (target.createProtectedBranch repo branch)

end RestoreTarget

structure InMemoryRestoreTarget where
  repositories : List String
  issueCount : Nat
  pullRequestCount : Nat
  releaseCount : Nat
  artifactCount : Nat
  protectedBranchCount : Nat
  deriving DecidableEq

def inMemory : RestoreTarget InMemoryRestoreTarget where
  hasRepository t owner name := t.repositories.contains (owner ++ "/" ++ name)
  createRepository repo t := (.ok (), { t with repositories := ordered (repo.fullName :: t.repositories) })
  createIssue _ _ t := (.ok (), { t with issueCount := t.issueCount + 1 })
  createPullRequest _ _ t := (.ok (), { t with pullRequestCount := t.pullRequestCount + 1 })
  createRelease _ _ t := (.ok (), { t with releaseCount := t.releaseCount + 1 })
  recordArtifact _ _ t := (.ok (), { t with artifactCount := t.artifactCount + 1 })
  createProtectedBranch _ _ t := (.ok (), { t with protectedBranchCount := t.protectedBranchCount + 1 })

theorem inMemory_apart : inMemory.Apart where
  repository repo t owner name other := by
    have same : owner ++ "/" ++ name ∈ ordered (repo.fullName :: t.repositories) ↔
        owner ++ "/" ++ name ∈ t.repositories := by
      rw [mem_ordered, List.mem_cons]
      exact or_iff_right other
    simpa [inMemory] using same
  issue _ _ _ _ _ _ := rfl
  pullRequest _ _ _ _ _ _ := rfl
  release _ _ _ _ _ _ := rfl
  artifact _ _ _ _ _ _ := rfl
  protectedBranch _ _ _ _ _ _ := rfl

abbrev Restore (T α : Type) := ExceptT RestoreError (StateM T) α

section Restore

variable {T α : Type} (target : RestoreTarget T) (options : RestoreOptions)

def ensureUniqueFrom (kind : String) (key : α → String) : List String → List α → Except RestoreError Unit
  | _, [] => .ok ()
  | seen, item :: rest =>
    if seen.contains (key item) then .error (.restoreInvariant s!"duplicate {kind} {key item}")
    else ensureUniqueFrom kind key (key item :: seen) rest

def ensureUnique (items : List α) (kind : String) (key : α → String) : Except RestoreError Unit :=
  ensureUniqueFrom kind key [] items

def RepositoryArchive.ensureUnique (repo : RepositoryArchive) : Except RestoreError Unit := do
  Mirror.ensureUnique repo.issues "issue" fun issue => toString issue.number
  Mirror.ensureUnique repo.pullRequests "pull request" fun pr => toString pr.number
  Mirror.ensureUnique repo.releases "release" ReleaseArchive.tagName
  Mirror.ensureUnique repo.artifacts "artifact" ArtifactMetadata.name
  Mirror.ensureUnique repo.webhooks "webhook" WebhookMigration.id
  Mirror.ensureUnique repo.appInstallations "app installation" AppInstallationMigration.id
  Mirror.ensureUnique repo.protectedBranches "protected branch" ProtectedBranchArchive.pattern

/-- A write, unless the run is dry. -/
def perform (write : Write T) : Restore T Unit :=
  if options.dryRun then pure ()
  else fun t => match write t with
    | (.ok (), t') => (.ok (), t')
    | (.error message, t') => (.error (.target message), t')

/-- The objects of one kind, each entered in the report and written. -/
def restoreEach (enter : α → RestoreReport → RestoreReport) (write : α → Write T) (items : List α) (report : RestoreReport) :
    Restore T RestoreReport :=
  items.foldlM (fun report item => do
    let report := enter item report
    perform options (write item)
    return report) report

namespace RestoreReport

def command (report : RestoreReport) (command : String) : RestoreReport :=
  { report with commands := report.commands ++ [command] }

def secret (report : RestoreReport) (name : Option String) : RestoreReport :=
  { report with secretRehydrationRequired := report.secretRehydrationRequired ++ name.toList }

variable (repo : RepositoryArchive) (report : RestoreReport)

def enterRepository : RestoreReport :=
  { report.command s!"create repository {repo.fullName}" with repositoriesPlanned := report.repositoriesPlanned + 1 }

def enterBranch (branch : ProtectedBranchArchive) : RestoreReport :=
  { report.command s!"restore branch protection {repo.fullName}:{branch.pattern}" with
    protectedBranchesPlanned := report.protectedBranchesPlanned + 1 }

def enterIssue (issue : NormalizedIssue) : RestoreReport :=
  { report.command s!"restore issue {repo.fullName}#{issue.number}" with issuesPlanned := report.issuesPlanned + 1 }

def enterPullRequest (pr : NormalizedPullRequest) : RestoreReport :=
  { report.command s!"restore pull request {repo.fullName}#{pr.number}" with
    pullRequestsPlanned := report.pullRequestsPlanned + 1 }

def enterRelease (release : ReleaseArchive) : RestoreReport :=
  { report.command s!"restore release {repo.fullName}@{release.tagName}" with
    releasesPlanned := report.releasesPlanned + 1 }

def enterArtifact (artifact : ArtifactMetadata) : RestoreReport :=
  { report.command s!"record artifact metadata {repo.fullName}:{artifact.name}" with
    artifactsPlanned := report.artifactsPlanned + 1 }

def enterWebhook (webhook : WebhookMigration) : RestoreReport :=
  { (report.command s!"restore webhook metadata {repo.fullName}:{webhook.url}").secret webhook.secretName with
    webhooksPlanned := report.webhooksPlanned + 1 }

def enterApp (app : AppInstallationMigration) : RestoreReport :=
  { (report.command s!"restore app installation metadata {repo.fullName}:{app.slug}").secret app.tokenSecretName with
    appInstallationsPlanned := report.appInstallationsPlanned + 1 }

/-- Webhooks and apps are entered only. -/
def enterHooks (options : RestoreOptions) : RestoreReport :=
  let webhooks := if options.restoreWebhooks then repo.webhooks else []
  let apps := if options.restoreAppInstallations then repo.appInstallations else []
  apps.foldl (enterApp repo) (webhooks.foldl (enterWebhook repo) report)

end RestoreReport

def restoreRepository (repo : RepositoryArchive) (report : RestoreReport) : Restore T RestoreReport := do
  let report := report.enterRepository repo
  perform options (target.createRepository repo)
  let report ← restoreEach options (fun branch report => report.enterBranch repo branch)
    (target.createProtectedBranch repo) repo.protectedBranches report
  let report ← restoreEach options (fun issue report => report.enterIssue repo issue) (target.createIssue repo)
    repo.issues report
  let report ← restoreEach options (fun pr report => report.enterPullRequest repo pr) (target.createPullRequest repo)
    repo.pullRequests report
  let report ← restoreEach options (fun release report => report.enterRelease repo release) (target.createRelease repo)
    repo.releases report
  let artifacts := if options.restoreJeryuArtifactMetadata then repo.artifacts else []
  let report ← restoreEach options (fun artifact report => report.enterArtifact repo artifact)
    (target.recordArtifact repo) artifacts report
  return report.enterHooks repo options

/-- The repository stands in the way. -/
def blocks (t : T) (repo : RepositoryArchive) : Bool :=
  options.requireEmptyTarget && target.hasRepository t repo.owner repo.name

def duplicateRepository (repo : RepositoryArchive) : RestoreError :=
  .restoreInvariant s!"duplicate repository {repo.fullName}"

def RestoreReport.block (report : RestoreReport) (repo : RepositoryArchive) : RestoreReport :=
  { report with blockers := report.blockers ++ [s!"target already has repository {repo.fullName}"] }

def restoreFrom : List RepositoryArchive → List String → RestoreReport → Restore T RestoreReport
  | [], _, report => pure report
  | repo :: rest, seen, report => do
    if seen.contains repo.fullName then throw (duplicateRepository repo)
    let t ← get
    if blocks target options t repo then restoreFrom rest (repo.fullName :: seen) (report.block repo)
    else
      match repo.ensureUnique with
      | .error error => throw error
      | .ok () =>
        let report ← restoreRepository target options repo report
        restoreFrom rest (repo.fullName :: seen) report

def planRestore (archive : Archive) : Restore T RestoreReport := do
  let report ← restoreFrom target options archive.repositories [] { RestoreReport.default with dryRun := options.dryRun }
  return { report with secretRehydrationRequired := ordered report.secretRehydrationRequired }

end Restore

section Writes

variable {T α β : Type}

/-- One write after the other, up to the first that fails. -/
def runWrites : List (Write T) → Write T
  | [], t => (.ok (), t)
  | write :: rest, t => match (write t).1 with
    | .ok () => runWrites rest (write t).2
    | .error message => (.error message, (write t).2)

theorem runWrites_append (first second : List (Write T)) (t : T) : runWrites (first ++ second) t =
    match (runWrites first t).1 with
    | .ok () => runWrites second (runWrites first t).2
    | .error message => (.error message, (runWrites first t).2) := by
  induction first generalizing t with
  | nil => rfl
  | cons write rest ih =>
    rw [List.cons_append, runWrites, runWrites]
    cases (write t).1 with
    | error message => rfl
    | ok _ => exact ih (write t).2

/-- What comes of writes before an answer. -/
def answered (answer : Except RestoreError α) (outcome : Except String Unit × T) : Except RestoreError α × T :=
  (match outcome.1 with
    | .ok () => answer
    | .error message => .error (.target message), outcome.2)

/-- A part of a run that makes these writes and no others, and answers so. -/
def Lands (part : Restore T α) (writes : List (Write T)) (a : α) : Prop := ∀ t, part.run t = answered (.ok a) (runWrites writes t)

theorem lands_pure (a : α) : Lands (pure a : Restore T α) [] a := fun _ => rfl

theorem Lands.run_bind {part : Restore T α} {writes : List (Write T)} {a : α} (lands : Lands part writes a)
    (rest : α → Restore T β) (t : T) : (part >>= rest).run t =
      match (runWrites writes t).1 with
      | .ok () => (rest a).run (runWrites writes t).2
      | .error message => (.error (.target message), (runWrites writes t).2) := by
  show (part.run >>= ExceptT.bindCont rest) t = _
  have here := lands t
  unfold answered at here
  show ExceptT.bindCont rest (part.run t).1 (part.run t).2 = _
  rw [here]
  cases (runWrites writes t).1 <;> rfl

theorem Lands.bind {part : Restore T α} {rest : α → Restore T β} {first second : List (Write T)} {a : α} {b : β}
    (lands : Lands part first a) (goes : Lands (rest a) second b) : Lands (part >>= rest) (first ++ second) b := by
  intro t
  rw [lands.run_bind rest t, runWrites_append]
  cases (runWrites first t).1 with
  | error message => rfl
  | ok _ => exact goes (runWrites first t).2

variable (options : RestoreOptions)

/-- What a run writes. -/
def unlessDry (writes : List (Write T)) : List (Write T) := if options.dryRun then [] else writes

theorem unlessDry_append (first second : List (Write T)) :
    unlessDry options (first ++ second) = unlessDry options first ++ unlessDry options second := by
  unfold unlessDry
  split <;> rfl

theorem perform_lands (write : Write T) : Lands (perform options write) (unlessDry options [write]) () := by
  intro t
  unfold perform unlessDry
  by_cases dry : options.dryRun = true
  · rw [if_pos dry, if_pos dry]
    rfl
  · rw [if_neg dry, if_neg dry]
    unfold answered runWrites
    cases done : write t with
    | mk result t' => cases result <;> simp [ExceptT.run, done, runWrites]

theorem unlessDry_nil : unlessDry options ([] : List (Write T)) = [] := by
  unfold unlessDry
  split <;> rfl

theorem restoreEach_lands (enter : α → RestoreReport → RestoreReport) (write : α → Write T) (items : List α)
    (report : RestoreReport) : Lands (restoreEach options enter write items report)
      (unlessDry options (items.map write)) (items.foldl (fun report item => enter item report) report) := by
  induction items generalizing report with
  | nil =>
    rw [List.map_nil, unlessDry_nil]
    exact lands_pure report
  | cons item rest ih =>
    have whole : unlessDry options ((item :: rest).map write) =
        (unlessDry options [write item] ++ []) ++ unlessDry options (rest.map write) := by
      rw [List.append_nil]
      exact unlessDry_append options [write item] _
    rw [whole]
    unfold restoreEach
    rw [List.foldlM_cons]
    exact ((perform_lands options (write item)).bind (lands_pure (enter item report))).bind (ih (enter item report))

end Writes

section Repository

variable {T : Type} (target : RestoreTarget T) (options : RestoreOptions) (repo : RepositoryArchive)

def recorded : List ArtifactMetadata := if options.restoreJeryuArtifactMetadata then repo.artifacts else []

/-- What is written of a repository. -/
def writesOf : List (Write T) :=
  target.createRepository repo :: (repo.protectedBranches.map (target.createProtectedBranch repo) ++
    (repo.issues.map (target.createIssue repo) ++ (repo.pullRequests.map (target.createPullRequest repo) ++
      (repo.releases.map (target.createRelease repo) ++ (recorded options repo).map (target.recordArtifact repo)))))

/-- The report with a repository in it. -/
def entered (report : RestoreReport) : RestoreReport :=
  let report := repo.protectedBranches.foldl (fun report branch => report.enterBranch repo branch)
    (report.enterRepository repo)
  let report := repo.issues.foldl (fun report issue => report.enterIssue repo issue) report
  let report := repo.pullRequests.foldl (fun report pr => report.enterPullRequest repo pr) report
  let report := repo.releases.foldl (fun report release => report.enterRelease repo release) report
  let report := (recorded options repo).foldl (fun report artifact => report.enterArtifact repo artifact) report
  report.enterHooks repo options

theorem restoreRepository_lands (report : RestoreReport) : Lands (restoreRepository target options repo report)
    (unlessDry options (writesOf target options repo)) (entered options repo report) := by
  have whole : unlessDry options (writesOf target options repo) =
      unlessDry options [target.createRepository repo] ++
        (unlessDry options (repo.protectedBranches.map (target.createProtectedBranch repo)) ++
          (unlessDry options (repo.issues.map (target.createIssue repo)) ++
            (unlessDry options (repo.pullRequests.map (target.createPullRequest repo)) ++
              (unlessDry options (repo.releases.map (target.createRelease repo)) ++
                (unlessDry options ((recorded options repo).map (target.recordArtifact repo)) ++ []))))) := by
    rw [List.append_nil]
    simp only [← unlessDry_append]
    rfl
  rw [whole]
  apply (perform_lands options (target.createRepository repo)).bind
  apply (restoreEach_lands options _ _ _ _).bind
  apply (restoreEach_lands options _ _ _ _).bind
  apply (restoreEach_lands options _ _ _ _).bind
  apply (restoreEach_lands options _ _ _ _).bind
  exact (restoreEach_lands options _ _ _ _).bind (lands_pure _)

end Repository

section Archive

variable {T : Type} (target : RestoreTarget T) (options : RestoreOptions) (start : T)

theorem keeps_runWrites (repo : RepositoryArchive) (writes : List (Write T))
    (keeps : ∀ write ∈ writes, target.Keeps repo write) : target.Keeps repo (runWrites writes) := by
  induction writes with
  | nil => exact fun _ _ _ _ => rfl
  | cons write rest ih =>
    intro t owner name other
    have here := keeps write List.mem_cons_self t owner name other
    have there := ih (fun write among => keeps write (List.mem_cons_of_mem _ among)) (write t).2 owner name other
    unfold runWrites
    cases (write t).1 with
    | ok _ => exact there.trans here
    | error _ => exact here

theorem keeps_writesOf (apart : target.Apart) (repo : RepositoryArchive) :
    ∀ write ∈ writesOf target options repo, target.Keeps repo write := by
  intro write among
  simp only [writesOf, List.mem_cons, List.mem_append, List.mem_map] at among
  rcases among with rfl | ⟨item, _, rfl⟩ | ⟨item, _, rfl⟩ | ⟨item, _, rfl⟩ | ⟨item, _, rfl⟩ | ⟨item, _, rfl⟩
  · exact apart.repository repo
  · exact apart.protectedBranch repo item
  · exact apart.issue repo item
  · exact apart.pullRequest repo item
  · exact apart.release repo item
  · exact apart.artifact repo item

/-- Why a repository is refused after these, if it is. -/
def refusal (before : List RepositoryArchive) (repo : RepositoryArchive) : Option RestoreError :=
  if (before.map RepositoryArchive.fullName).contains repo.fullName then some (duplicateRepository repo)
  else if blocks target options start repo then none
  else match repo.ensureUnique with
    | .error error => some error
    | .ok () => none

/-- After the repositories before them, none of these is refused. -/
def Passes : List RepositoryArchive → List RepositoryArchive → Prop
  | _, [] => True
  | before, repo :: rest => refusal target options start before repo = none ∧ Passes (before ++ [repo]) rest

/-- What is written of an archive, and the report on it, unless a repository is refused. -/
def archiveWrites (repos : List RepositoryArchive) : List (Write T) :=
  (repos.filter fun repo => !blocks target options start repo).flatMap (writesOf target options)

def enteredAll (repos : List RepositoryArchive) (report : RestoreReport) : RestoreReport :=
  repos.foldl (fun report repo => if blocks target options start repo then report.block repo
    else entered options repo report) report

/-- The target has the same repositories as at the start, but for these. -/
def SameBut (names : List String) (t : T) : Prop := ∀ owner name, owner ++ "/" ++ name ∉ names →
  target.hasRepository t owner name = target.hasRepository start owner name

variable {target options start}

theorem SameBut.blocks {names : List String} {t : T} (same : SameBut target start names t) {repo : RepositoryArchive}
    (fresh : repo.fullName ∉ names) : blocks target options t repo = blocks target options start repo := by
  have known : target.hasRepository t repo.owner repo.name = target.hasRepository start repo.owner repo.name :=
    same repo.owner repo.name fresh
  unfold Mirror.blocks
  rw [known]

theorem SameBut.mono {names names' : List String} {t : T} (same : SameBut target start names t)
    (wider : ∀ name ∈ names, name ∈ names') : SameBut target start names' t :=
  fun owner name fresh => same owner name fun among => fresh (wider _ among)

theorem SameBut.writes {names : List String} {t : T} (same : SameBut target start names t) (apart : target.Apart)
    (repo : RepositoryArchive) :
    SameBut target start (repo.fullName :: names) (runWrites (unlessDry options (writesOf target options repo)) t).2 := by
  intro owner name fresh
  obtain ⟨other, fresh⟩ : owner ++ "/" ++ name ≠ repo.fullName ∧ owner ++ "/" ++ name ∉ names := by simpa using fresh
  have keeps : target.Keeps repo (runWrites (unlessDry options (writesOf target options repo))) := by
    unfold unlessDry
    by_cases dry : options.dryRun = true
    · rw [if_pos dry]
      exact fun _ _ _ _ => rfl
    · rw [if_neg dry]
      exact keeps_runWrites target repo _ (keeps_writesOf target options apart repo)
  rw [keeps t owner name other]
  exact same owner name fresh

theorem restoreFrom_refused {before rest : List RepositoryArchive} {repo : RepositoryArchive} {seen : List String}
    {report : RestoreReport} {t : T} {error : RestoreError} (known : ∀ name, name ∈ seen ↔ name ∈ before.map RepositoryArchive.fullName)
    (same : SameBut target start seen t) (refused : refusal target options start before repo = some error) :
    (restoreFrom target options (repo :: rest) seen report).run t = (.error error, t) := by
  unfold refusal at refused
  unfold restoreFrom
  by_cases again : repo.fullName ∈ seen
  · have counted : (before.map RepositoryArchive.fullName).contains repo.fullName = true :=
      List.contains_iff_mem.2 ((known _).1 again)
    rw [if_pos counted] at refused
    obtain rfl := Option.some.inj refused
    rw [if_pos (List.contains_iff_mem.2 again)]
    rfl
  · have fresh : ¬ (before.map RepositoryArchive.fullName).contains repo.fullName = true :=
      fun among => again ((known _).2 (List.contains_iff_mem.1 among))
    rw [if_neg fresh, ← same.blocks again] at refused
    rw [if_neg fun among => again (List.contains_iff_mem.1 among)]
    by_cases blocked : blocks target options t repo = true
    · rw [if_pos blocked] at refused
      cases refused
    · rw [if_neg blocked] at refused
      show (ite _ _ _ : Restore T RestoreReport).run t = _
      rw [if_neg blocked]
      cases checked : repo.ensureUnique with
      | ok _ => simp [checked] at refused
      | error error' =>
        rw [checked] at refused
        obtain rfl := Option.some.inj refused
        rfl

/-- One repository that is not refused: it stands in the way, or it is written and entered. -/
theorem restoreFrom_passed (rest : List RepositoryArchive) (report : RestoreReport) {before : List RepositoryArchive}
    {repo : RepositoryArchive} {seen : List String} {t : T} (known : ∀ name, name ∈ seen ↔ name ∈ before.map RepositoryArchive.fullName)
    (same : SameBut target start seen t) (passed : refusal target options start before repo = none) :
    (restoreFrom target options (repo :: rest) seen report).run t =
      match (runWrites (unlessDry options (archiveWrites target options start [repo])) t).1 with
      | .ok () => (restoreFrom target options rest (repo.fullName :: seen) (enteredAll target options start [repo] report)).run
        (runWrites (unlessDry options (archiveWrites target options start [repo])) t).2
      | .error message =>
        (.error (.target message), (runWrites (unlessDry options (archiveWrites target options start [repo])) t).2) := by
  unfold refusal at passed
  have fresh : ¬ (before.map RepositoryArchive.fullName).contains repo.fullName = true := by
    intro again
    rw [if_pos again] at passed
    cases passed
  have unseen : repo.fullName ∉ seen := fun among => fresh (List.contains_iff_mem.2 ((known _).1 among))
  rw [if_neg fresh, ← same.blocks unseen] at passed
  conv_lhs => unfold restoreFrom
  rw [if_neg fun among => unseen (List.contains_iff_mem.1 among)]
  show (ite _ _ _ : Restore T RestoreReport).run t = _
  by_cases blocked : blocks target options t repo = true
  · have nothing : archiveWrites target options start [repo] = [] := by
      simp [archiveWrites, ← same.blocks unseen, blocked]
    have noted : enteredAll target options start [repo] report = report.block repo := by
      simp [enteredAll, ← same.blocks unseen, blocked]
    rw [if_pos blocked, nothing, unlessDry_nil, noted]
    rfl
  · have written : archiveWrites target options start [repo] = writesOf target options repo := by
      simp [archiveWrites, ← same.blocks unseen, blocked]
    have noted : enteredAll target options start [repo] report = entered options repo report := by
      simp [enteredAll, ← same.blocks unseen, blocked]
    rw [if_neg blocked] at passed
    rw [if_neg blocked, written, noted]
    cases checked : repo.ensureUnique with
    | error error =>
      rw [checked] at passed
      cases passed
    | ok _ =>
      exact (restoreRepository_lands target options repo report).run_bind
        (fun report => restoreFrom target options rest (repo.fullName :: seen) report) t

theorem archiveWrites_cons (repo : RepositoryArchive) (repos : List RepositoryArchive) :
    archiveWrites target options start (repo :: repos) =
      archiveWrites target options start [repo] ++ archiveWrites target options start repos := by
  unfold archiveWrites
  cases blocked : blocks target options start repo <;> simp [blocked]

theorem restoreFrom_passes (apart : target.Apart) (repos rest : List RepositoryArchive) :
    ∀ (report : RestoreReport) {before : List RepositoryArchive} {seen : List String} {t : T},
    (∀ name, name ∈ seen ↔ name ∈ before.map RepositoryArchive.fullName) → SameBut target start seen t →
    Passes target options start before repos →
    let ran := runWrites (unlessDry options (archiveWrites target options start repos)) t
    let seen' := (repos.map RepositoryArchive.fullName).reverse ++ seen
    SameBut target start seen' ran.2 ∧ (restoreFrom target options (repos ++ rest) seen report).run t =
      match ran.1 with
      | .ok () => (restoreFrom target options rest seen' (enteredAll target options start repos report)).run ran.2
      | .error message => (.error (.target message), ran.2) := by
  induction repos with
  | nil =>
    intro report before seen t known same passes
    have nothing : archiveWrites target options start [] = [] := rfl
    rw [nothing, unlessDry_nil]
    exact ⟨same, rfl⟩
  | cons repo repos ih =>
    intro report before seen t known same passes
    have known' : ∀ name, name ∈ repo.fullName :: seen ↔ name ∈ (before ++ [repo]).map RepositoryArchive.fullName := by
      intro name
      simp [known name, or_comm]
    have same' : SameBut target start (repo.fullName :: seen)
        (runWrites (unlessDry options (archiveWrites target options start [repo])) t).2 := by
      cases blocked : blocks target options start repo with
      | true =>
        have nothing : archiveWrites target options start [repo] = [] := by simp [archiveWrites, blocked]
        rw [nothing, unlessDry_nil]
        exact same.mono fun name among => List.mem_cons_of_mem _ among
      | false =>
        have written : archiveWrites target options start [repo] = writesOf target options repo := by
          simp [archiveWrites, blocked]
        rw [written]
        exact same.writes apart repo
    have here := restoreFrom_passed (repos ++ rest) report known same passes.1
    obtain ⟨there, runs⟩ := ih (enteredAll target options start [repo] report) known' same' passes.2
    have renamed : (repos.map RepositoryArchive.fullName).reverse ++ repo.fullName :: seen =
        ((repo :: repos).map RepositoryArchive.fullName).reverse ++ seen := by simp
    rw [renamed] at there runs
    intro ran seen'
    have split : ran = runWrites (unlessDry options (archiveWrites target options start [repo]) ++
        unlessDry options (archiveWrites target options start repos)) t := by
      rw [← unlessDry_append, ← archiveWrites_cons]
    rw [runWrites_append] at split
    rw [List.cons_append, here]
    cases first : (runWrites (unlessDry options (archiveWrites target options start [repo])) t).1 with
    | error message =>
      rw [first] at split
      rw [split]
      have wider : ∀ name ∈ repo.fullName :: seen, name ∈ seen' := by
        intro name among
        have listed : name = repo.fullName ∨ name ∈ seen := List.mem_cons.1 among
        simp only [seen', List.mem_append, List.mem_reverse, List.map_cons, List.mem_cons]
        tauto
      exact ⟨same'.mono wider, rfl⟩
    | ok _ =>
      rw [first] at split
      rw [split]
      exact ⟨there, runs⟩

variable (target options start) in
/-- The archive as a whole passes, or there is a first repository that is refused. -/
theorem passes_or_refused (repos : List RepositoryArchive) : ∀ before, Passes target options start before repos ∨
    ∃ passed repo after error, repos = passed ++ repo :: after ∧ Passes target options start before passed ∧
      refusal target options start (before ++ passed) repo = some error := by
  induction repos with
  | nil => exact fun _ => .inl trivial
  | cons repo repos ih =>
    intro before
    cases refused : refusal target options start before repo with
    | some error =>
      rw [← List.append_nil before] at refused
      exact .inr ⟨[], repo, repos, error, rfl, trivial, refused⟩
    | none =>
      rcases ih (before ++ [repo]) with passes | ⟨passed, next, after, error, rfl, passes, refused'⟩
      · exact .inl ⟨refused, passes⟩
      · rw [List.append_assoc, List.singleton_append] at refused'
        exact .inr ⟨repo :: passed, next, after, error, rfl, ⟨refused, passes⟩, refused'⟩

end Archive

section Counts

variable {T α : Type} (options : RestoreOptions) (repo : RepositoryArchive) (report : RestoreReport)

def hooked : List WebhookMigration := if options.restoreWebhooks then repo.webhooks else []

def installed : List AppInstallationMigration := if options.restoreAppInstallations then repo.appInstallations else []

/-- One command for every object of the repository that is planned. -/
def commandsOf : List String :=
  s!"create repository {repo.fullName}" ::
    (repo.protectedBranches.map fun branch => s!"restore branch protection {repo.fullName}:{branch.pattern}") ++
    (repo.issues.map fun issue => s!"restore issue {repo.fullName}#{issue.number}") ++
    (repo.pullRequests.map fun pr => s!"restore pull request {repo.fullName}#{pr.number}") ++
    (repo.releases.map fun release => s!"restore release {repo.fullName}@{release.tagName}") ++
    ((recorded options repo).map fun artifact => s!"record artifact metadata {repo.fullName}:{artifact.name}") ++
    ((hooked options repo).map fun webhook => s!"restore webhook metadata {repo.fullName}:{webhook.url}") ++
    ((installed options repo).map fun app => s!"restore app installation metadata {repo.fullName}:{app.slug}")

def secretsOf : List String :=
  ((hooked options repo).flatMap fun webhook => webhook.secretName.toList) ++
    (installed options repo).flatMap fun app => app.tokenSecretName.toList

theorem enterBranch_foldl (items : List ProtectedBranchArchive) :
    items.foldl (fun report branch => report.enterBranch repo branch) report =
      { report with
        commands := report.commands ++ items.map fun branch => s!"restore branch protection {repo.fullName}:{branch.pattern}"
        protectedBranchesPlanned := report.protectedBranchesPlanned + items.length } := by
  induction items generalizing report with
  | nil => simp
  | cons item rest ih =>
    rw [List.foldl_cons, ih]
    simp [RestoreReport.enterBranch, RestoreReport.command, Nat.add_comm, Nat.add_left_comm]

theorem enterIssue_foldl (items : List NormalizedIssue) :
    items.foldl (fun report issue => report.enterIssue repo issue) report =
      { report with
        commands := report.commands ++ items.map fun issue => s!"restore issue {repo.fullName}#{issue.number}"
        issuesPlanned := report.issuesPlanned + items.length } := by
  induction items generalizing report with
  | nil => simp
  | cons item rest ih =>
    rw [List.foldl_cons, ih]
    simp [RestoreReport.enterIssue, RestoreReport.command, Nat.add_comm, Nat.add_left_comm]

theorem enterPullRequest_foldl (items : List NormalizedPullRequest) :
    items.foldl (fun report pr => report.enterPullRequest repo pr) report =
      { report with
        commands := report.commands ++ items.map fun pr => s!"restore pull request {repo.fullName}#{pr.number}"
        pullRequestsPlanned := report.pullRequestsPlanned + items.length } := by
  induction items generalizing report with
  | nil => simp
  | cons item rest ih =>
    rw [List.foldl_cons, ih]
    simp [RestoreReport.enterPullRequest, RestoreReport.command, Nat.add_comm, Nat.add_left_comm]

theorem enterRelease_foldl (items : List ReleaseArchive) :
    items.foldl (fun report release => report.enterRelease repo release) report =
      { report with
        commands := report.commands ++ items.map fun release => s!"restore release {repo.fullName}@{release.tagName}"
        releasesPlanned := report.releasesPlanned + items.length } := by
  induction items generalizing report with
  | nil => simp
  | cons item rest ih =>
    rw [List.foldl_cons, ih]
    simp [RestoreReport.enterRelease, RestoreReport.command, Nat.add_comm, Nat.add_left_comm]

theorem enterArtifact_foldl (items : List ArtifactMetadata) :
    items.foldl (fun report artifact => report.enterArtifact repo artifact) report =
      { report with
        commands := report.commands ++ items.map fun artifact => s!"record artifact metadata {repo.fullName}:{artifact.name}"
        artifactsPlanned := report.artifactsPlanned + items.length } := by
  induction items generalizing report with
  | nil => simp
  | cons item rest ih =>
    rw [List.foldl_cons, ih]
    simp [RestoreReport.enterArtifact, RestoreReport.command, Nat.add_comm, Nat.add_left_comm]

theorem enterWebhook_foldl (items : List WebhookMigration) :
    items.foldl (RestoreReport.enterWebhook repo) report =
      { report with
        commands := report.commands ++ items.map fun webhook => s!"restore webhook metadata {repo.fullName}:{webhook.url}"
        secretRehydrationRequired := report.secretRehydrationRequired ++ items.flatMap fun webhook => webhook.secretName.toList
        webhooksPlanned := report.webhooksPlanned + items.length } := by
  induction items generalizing report with
  | nil => simp
  | cons item rest ih =>
    rw [List.foldl_cons, ih]
    simp [RestoreReport.enterWebhook, RestoreReport.secret, RestoreReport.command, Nat.add_comm, Nat.add_left_comm]

theorem enterApp_foldl (items : List AppInstallationMigration) :
    items.foldl (RestoreReport.enterApp repo) report =
      { report with
        commands := report.commands ++ items.map fun app => s!"restore app installation metadata {repo.fullName}:{app.slug}"
        secretRehydrationRequired := report.secretRehydrationRequired ++ items.flatMap fun app => app.tokenSecretName.toList
        appInstallationsPlanned := report.appInstallationsPlanned + items.length } := by
  induction items generalizing report with
  | nil => simp
  | cons item rest ih =>
    rw [List.foldl_cons, ih]
    simp [RestoreReport.enterApp, RestoreReport.secret, RestoreReport.command, Nat.add_comm, Nat.add_left_comm]

theorem entered_eq : entered options repo report =
    { report with
      repositoriesPlanned := report.repositoriesPlanned + 1
      issuesPlanned := report.issuesPlanned + repo.issues.length
      pullRequestsPlanned := report.pullRequestsPlanned + repo.pullRequests.length
      releasesPlanned := report.releasesPlanned + repo.releases.length
      artifactsPlanned := report.artifactsPlanned + (recorded options repo).length
      webhooksPlanned := report.webhooksPlanned + (hooked options repo).length
      appInstallationsPlanned := report.appInstallationsPlanned + (installed options repo).length
      protectedBranchesPlanned := report.protectedBranchesPlanned + repo.protectedBranches.length
      secretRehydrationRequired := report.secretRehydrationRequired ++ secretsOf options repo
      commands := report.commands ++ commandsOf options repo } := by
  simp only [entered, enterBranch_foldl, enterIssue_foldl, enterPullRequest_foldl, enterRelease_foldl,
    enterArtifact_foldl, RestoreReport.enterHooks, enterWebhook_foldl, enterApp_foldl, RestoreReport.enterRepository,
    RestoreReport.command, commandsOf, secretsOf, List.append_assoc, List.cons_append, List.nil_append, hooked, installed]

variable (target : RestoreTarget T) (start : T) (repos : List RepositoryArchive)

/-- What is counted of the repositories in the way is all that misses in the report. -/
theorem enteredAll_adds (count : RestoreReport → Nat) (size : RepositoryArchive → Nat)
    (enters : ∀ repo report, count (entered options repo report) = count report + size repo)
    (blocked : ∀ repo report, count (report.block repo) = count report) :
    count (enteredAll target options start repos report) + ((repos.filter (blocks target options start)).map size).sum =
      count report + (repos.map size).sum := by
  induction repos generalizing report with
  | nil => rfl
  | cons repo rest ih =>
    cases inWay : blocks target options start repo with
    | true =>
      have tail := ih (report.block repo)
      rw [blocked] at tail
      simp only [enteredAll, List.foldl_cons, inWay, if_true, List.filter_cons, List.map_cons, List.sum_cons] at tail ⊢
      omega
    | false =>
      have tail := ih (entered options repo report)
      rw [enters] at tail
      simp only [enteredAll, List.foldl_cons, inWay, Bool.false_eq_true, if_false, List.filter_cons, List.map_cons,
        List.sum_cons] at tail ⊢
      omega

/-- A kind of object that an option may leave out. -/
theorem adds_if {on : Bool} {planned : Nat} {inTheWay repos : List RepositoryArchive} {size : RepositoryArchive → Nat}
    (adds : planned + (inTheWay.map fun repo => if on then size repo else 0).sum =
      (repos.map fun repo => if on then size repo else 0).sum) :
    if on then planned + (inTheWay.map size).sum = (repos.map size).sum else planned = 0 := by
  cases on with
  | true => simpa using adds
  | false => simpa using adds

theorem enteredAll_commands : (enteredAll target options start repos report).commands = report.commands ++
    (repos.filter fun repo => !blocks target options start repo).flatMap (commandsOf options) := by
  induction repos generalizing report with
  | nil => simp [enteredAll]
  | cons repo rest ih =>
    cases inWay : blocks target options start repo with
    | true =>
      have tail := ih (report.block repo)
      simpa [enteredAll, inWay, RestoreReport.block] using tail
    | false =>
      have tail := ih (entered options repo report)
      rw [entered_eq] at tail
      simpa [enteredAll, inWay, entered_eq] using tail

theorem enteredAll_blockers : (enteredAll target options start repos report).blockers = report.blockers ++
    (repos.filter (blocks target options start)).map fun repo => s!"target already has repository {repo.fullName}" := by
  induction repos generalizing report with
  | nil => simp [enteredAll]
  | cons repo rest ih =>
    cases inWay : blocks target options start repo with
    | true =>
      have tail := ih (report.block repo)
      simpa [enteredAll, inWay, RestoreReport.block] using tail
    | false =>
      have tail := ih (entered options repo report)
      rw [entered_eq] at tail
      simpa [enteredAll, inWay, entered_eq] using tail

theorem enteredAll_dryRun (dry : Bool) : enteredAll target options start repos { report with dryRun := dry } =
    { enteredAll target options start repos report with dryRun := dry } := by
  induction repos generalizing report with
  | nil => rfl
  | cons repo rest ih =>
    cases inWay : blocks target options start repo with
    | true =>
      have tail := ih (report.block repo)
      simpa [enteredAll, inWay, RestoreReport.block] using tail
    | false =>
      have tail := ih (entered options repo report)
      rw [entered_eq] at tail
      simpa [enteredAll, inWay, entered_eq] using tail

theorem commandsOf_length : (commandsOf options repo).length = 1 + repo.protectedBranches.length + repo.issues.length +
    repo.pullRequests.length + repo.releases.length + (recorded options repo).length + (hooked options repo).length +
    (installed options repo).length := by
  simp only [commandsOf, List.length_append, List.length_cons, List.length_map]
  omega

/-- One command for every object counted. -/
def RestoreReport.Balanced : Prop := report.commands.length = report.repositoriesPlanned + report.issuesPlanned +
  report.pullRequestsPlanned + report.releasesPlanned + report.artifactsPlanned + report.webhooksPlanned +
  report.appInstallationsPlanned + report.protectedBranchesPlanned

theorem enteredAll_balanced (balanced : report.Balanced) : (enteredAll target options start repos report).Balanced := by
  induction repos generalizing report with
  | nil => exact balanced
  | cons repo rest ih =>
    have head : (if blocks target options start repo then report.block repo else entered options repo report).Balanced := by
      split
      · exact balanced
      · rw [entered_eq]
        simp only [RestoreReport.Balanced, List.length_append, commandsOf_length] at balanced ⊢
        omega
    exact ih _ head

end Counts

section Refusals

variable {α β : Type}

/-- Whatever error this is, it is a broken invariant. -/
def Checked (result : Except RestoreError α) : Prop := ∀ error, result = .error error → ∃ message, error = .restoreInvariant message

theorem Checked.bind {first : Except RestoreError α} {rest : α → Except RestoreError β} (checked : Checked first)
    (then_ : ∀ a, Checked (rest a)) : Checked (first >>= rest) := by
  intro error failed
  cases first with
  | error _ => exact checked error (by simpa [Bind.bind, Except.bind] using failed)
  | ok a => exact then_ a error failed

theorem ensureUniqueFrom_checked (kind : String) (key : α → String) (items : List α) :
    ∀ seen, Checked (ensureUniqueFrom kind key seen items) := by
  induction items with
  | nil =>
    intro seen error failed
    cases failed
  | cons item rest ih =>
    intro seen error failed
    unfold ensureUniqueFrom at failed
    by_cases again : seen.contains (key item) = true
    · rw [if_pos again] at failed
      exact ⟨_, (Except.error.inj failed).symm⟩
    · rw [if_neg again] at failed
      exact ih _ error failed

theorem ensureUnique_checked (repo : RepositoryArchive) : Checked repo.ensureUnique := by
  apply (ensureUniqueFrom_checked _ _ _ _).bind; intro _
  apply (ensureUniqueFrom_checked _ _ _ _).bind; intro _
  apply (ensureUniqueFrom_checked _ _ _ _).bind; intro _
  apply (ensureUniqueFrom_checked _ _ _ _).bind; intro _
  apply (ensureUniqueFrom_checked _ _ _ _).bind; intro _
  apply (ensureUniqueFrom_checked _ _ _ _).bind; intro _
  exact ensureUniqueFrom_checked _ _ _ _

theorem refusal_checked {T : Type} {target : RestoreTarget T} {options : RestoreOptions} {start : T}
    {before : List RepositoryArchive} {repo : RepositoryArchive} {error : RestoreError}
    (refused : refusal target options start before repo = some error) : ∃ message, error = .restoreInvariant message := by
  unfold refusal at refused
  split at refused
  · exact ⟨_, (Option.some.inj refused).symm⟩
  · split at refused
    · cases refused
    · split at refused
      next failed =>
        obtain rfl := Option.some.inj refused
        exact ensureUnique_checked repo _ failed
      next => cases refused

end Refusals

section Prediction

variable {T : Type} (target : RestoreTarget T) (options : RestoreOptions) (archive : Archive) (t : T)

def RestoreOptions.as (dryRun : Bool) : RestoreOptions := { options with dryRun }

def startingReport : RestoreReport := { RestoreReport.default with dryRun := options.dryRun }

def RestoreReport.finished (report : RestoreReport) : RestoreReport :=
  { report with secretRehydrationRequired := ordered report.secretRehydrationRequired }

/-- The report on an archive that passes. -/
def expected : RestoreReport := (enteredAll target options t archive.repositories (startingReport options)).finished

theorem planRestore_eq (seenFrom : Except RestoreError RestoreReport × T)
    (ran : (restoreFrom target options archive.repositories [] (startingReport options)).run t = seenFrom) :
    (planRestore target options archive).run t = (seenFrom.1.map RestoreReport.finished, seenFrom.2) := by
  obtain ⟨answer, t'⟩ := seenFrom
  let finish : RestoreReport → Restore T RestoreReport := fun report => pure report.finished
  show ExceptT.bindCont finish ((restoreFrom target options archive.repositories [] (startingReport options)).run t).1
    ((restoreFrom target options archive.repositories [] (startingReport options)).run t).2 = _
  rw [ran]
  cases answer <;> rfl

variable {target options archive t}

theorem planRestore_passes (apart : target.Apart) (passes : Passes target options t [] archive.repositories) :
    (planRestore target options archive).run t = answered (.ok (expected target options archive t))
      (runWrites (unlessDry options (archiveWrites target options t archive.repositories)) t) := by
  have none_ : ∀ name : String, name ∈ ([] : List String) ↔ name ∈ ([] : List RepositoryArchive).map RepositoryArchive.fullName := by simp
  have same : SameBut target t [] t := fun _ _ _ => rfl
  have ran := (restoreFrom_passes apart archive.repositories [] (startingReport options) none_ same passes).2
  rw [List.append_nil] at ran
  rw [planRestore_eq target options archive t _ ran]
  unfold answered
  cases (runWrites (unlessDry options (archiveWrites target options t archive.repositories)) t).1 <;> rfl

theorem planRestore_refused (apart : target.Apart) {passed after : List RepositoryArchive} {repo : RepositoryArchive}
    {error : RestoreError} (listed : archive.repositories = passed ++ repo :: after) (passes : Passes target options t [] passed)
    (refused : refusal target options t passed repo = some error) :
    (planRestore target options archive).run t =
      answered (.error error) (runWrites (unlessDry options (archiveWrites target options t passed)) t) := by
  have none_ : ∀ name : String, name ∈ ([] : List String) ↔ name ∈ ([] : List RepositoryArchive).map RepositoryArchive.fullName := by simp
  have same : SameBut target t [] t := fun _ _ _ => rfl
  obtain ⟨same', ran⟩ :=
    restoreFrom_passes apart passed (repo :: after) (startingReport options) none_ same passes
  have known : ∀ name, name ∈ (passed.map RepositoryArchive.fullName).reverse ++ [] ↔
      name ∈ passed.map RepositoryArchive.fullName := by simp
  rw [restoreFrom_refused known same' refused, ← listed] at ran
  rw [planRestore_eq target options archive t _ ran]
  unfold answered
  cases (runWrites (unlessDry options (archiveWrites target options t passed)) t).1 <;> rfl

variable (target options archive t)

def inTheWay : List RepositoryArchive := archive.repositories.filter (blocks target options t)

/-- The counts of the repositories in the way. -/
def lessCounts : ArchiveCounts := { archive with repositories := inTheWay target options archive t : Archive }.counts

/-- The report counts what the archive has, less the repositories in the way. -/
structure Counted (report : RestoreReport) : Prop where
  blockers : report.blockers =
    (inTheWay target options archive t).map fun repo => s!"target already has repository {repo.fullName}"
  repositories : report.repositoriesPlanned + (lessCounts target options archive t).repositories = archive.counts.repositories
  issues : report.issuesPlanned + (lessCounts target options archive t).issues = archive.counts.issues
  pullRequests : report.pullRequestsPlanned + (lessCounts target options archive t).pullRequests = archive.counts.pullRequests
  releases : report.releasesPlanned + (lessCounts target options archive t).releases = archive.counts.releases
  protectedBranches : report.protectedBranchesPlanned + (lessCounts target options archive t).protectedBranches =
    archive.counts.protectedBranches
  artifacts : if options.restoreJeryuArtifactMetadata then
      report.artifactsPlanned + (lessCounts target options archive t).artifacts = archive.counts.artifacts
    else report.artifactsPlanned = 0
  webhooks : if options.restoreWebhooks then
      report.webhooksPlanned + (lessCounts target options archive t).webhooks = archive.counts.webhooks
    else report.webhooksPlanned = 0
  appInstallations : if options.restoreAppInstallations then
      report.appInstallationsPlanned + (lessCounts target options archive t).appInstallations = archive.counts.appInstallations
    else report.appInstallationsPlanned = 0
  commands : report.commands =
    (archive.repositories.filter fun repo => !blocks target options t repo).flatMap (commandsOf options)
  balanced : report.Balanced

/-- A dry run predicts the restore. -/
structure Predicts : Prop where
  dry : ((planRestore target (options.as true) archive).run t).2 = t
  same : (∀ message, ((planRestore target (options.as false) archive).run t).1 ≠ .error (.target message)) →
    ((planRestore target (options.as true) archive).run t).1 =
      ((planRestore target (options.as false) archive).run t).1.map fun report => { report with dryRun := true }
  unchanged : ∀ dry message, ((planRestore target (options.as dry) archive).run t).1 = .error (.restoreInvariant message) →
    ((planRestore target (options.as dry) archive).run t).2 = t
  counted : ∀ dry report, ((planRestore target (options.as dry) archive).run t).1 = .ok report →
    Counted target options archive t report

/-- No repository is refused once the ones before it have changed the target. -/
def Harmless : Prop := ∀ passed repo after error, archive.repositories = passed ++ repo :: after →
  Passes target options t [] passed → refusal target options t passed repo = some error →
  (runWrites (archiveWrites target options t passed) t).1 = .ok () →
  (runWrites (archiveWrites target options t passed) t).2 = t

theorem passes_as (dry : Bool) (repos : List RepositoryArchive) :
    ∀ before, Passes target (options.as dry) t before repos ↔ Passes target options t before repos := by
  induction repos with
  | nil => exact fun _ => Iff.rfl
  | cons repo rest ih => exact fun before => and_congr Iff.rfl (ih _)

theorem expected_as (dry : Bool) :
    expected target (options.as dry) archive t = { expected target options archive t with dryRun := dry } := by
  have initial : startingReport (options.as dry) = { startingReport options with dryRun := dry } := rfl
  have entered' : enteredAll target (options.as dry) t archive.repositories (startingReport (options.as dry)) =
      enteredAll target options t archive.repositories (startingReport (options.as dry)) := rfl
  unfold expected
  rw [entered', initial, enteredAll_dryRun]
  rfl

variable {target options archive t}

theorem answered_ok {α : Type} {outcome : Except String Unit × T} (wrote : outcome.1 = .ok ())
    (answer : Except RestoreError α) : answered answer outcome = (answer, outcome.2) := by
  rw [answered, wrote]

/-- Either all was written, or the target has failed. -/
theorem answered_cases {α : Type} (answer : Except RestoreError α) (outcome : Except String Unit × T) :
    outcome.1 = .ok () ∨ ∃ message, (answered answer outcome).1 = .error (.target message) := by
  rw [answered]
  cases outcome.1 with
  | ok _ => exact .inl rfl
  | error message => exact .inr ⟨message, rfl⟩

variable (target options archive t) in
theorem expected_counted : Counted target options archive t (expected target options archive t) := by
  have adds := enteredAll_adds options (startingReport options) target t archive.repositories
  constructor
  case blockers => exact (enteredAll_blockers options (startingReport options) target t archive.repositories)
  case commands => exact (enteredAll_commands options (startingReport options) target t archive.repositories)
  case balanced => exact enteredAll_balanced options (startingReport options) target t archive.repositories rfl
  case repositories =>
    have counted := adds RestoreReport.repositoriesPlanned (fun _ => 1) (by intros; rw [entered_eq]) fun _ _ => rfl
    simp only [List.map_const', List.sum_replicate_nat, Nat.mul_one] at counted
    exact counted.trans (Nat.zero_add _)
  case issues =>
    have counted := adds RestoreReport.issuesPlanned (fun repo => repo.issues.length) (by intros; rw [entered_eq]) fun _ _ => rfl
    exact counted.trans (Nat.zero_add _)
  case pullRequests =>
    have counted := adds RestoreReport.pullRequestsPlanned (fun repo => repo.pullRequests.length) (by intros; rw [entered_eq])
      fun _ _ => rfl
    exact counted.trans (Nat.zero_add _)
  case releases =>
    have counted := adds RestoreReport.releasesPlanned (fun repo => repo.releases.length) (by intros; rw [entered_eq])
      fun _ _ => rfl
    exact counted.trans (Nat.zero_add _)
  case protectedBranches =>
    have counted := adds RestoreReport.protectedBranchesPlanned (fun repo => repo.protectedBranches.length)
      (by intros; rw [entered_eq]) fun _ _ => rfl
    exact counted.trans (Nat.zero_add _)
  case artifacts =>
    have counted := adds RestoreReport.artifactsPlanned
      (fun repo => if options.restoreJeryuArtifactMetadata then repo.artifacts.length else 0)
      (by intros; rw [entered_eq, recorded, apply_ite List.length]; rfl) fun _ _ => rfl
    exact adds_if (counted.trans (Nat.zero_add _))
  case webhooks =>
    have counted := adds RestoreReport.webhooksPlanned
      (fun repo => if options.restoreWebhooks then repo.webhooks.length else 0)
      (by intros; rw [entered_eq, hooked, apply_ite List.length]; rfl) fun _ _ => rfl
    exact adds_if (counted.trans (Nat.zero_add _))
  case appInstallations =>
    have counted := adds RestoreReport.appInstallationsPlanned
      (fun repo => if options.restoreAppInstallations then repo.appInstallations.length else 0)
      (by intros; rw [entered_eq, installed, apply_ite List.length]; rfl) fun _ _ => rfl
    exact adds_if (counted.trans (Nat.zero_add _))

theorem unlessDry_as (dry : Bool) (writes : List (Write T)) :
    unlessDry (options.as dry) writes = if dry then [] else writes := rfl

def RestoreReport.as (dryRun : Bool) (report : RestoreReport) : RestoreReport := { report with dryRun }

variable (target options archive t) in
/-- What a run comes to in either mode: an archive that passes, or the first repository that is refused. -/
structure Comes (answer : Except RestoreError RestoreReport) (writes : List (Write T)) : Prop where
  ran : ∀ dry, (planRestore target (options.as dry) archive).run t =
    answered (answer.map (RestoreReport.as dry)) (runWrites (if dry then [] else writes) t)
  passed : ∀ report, answer = .ok report → report = expected target options archive t
  refused : ∀ error, answer = .error error → ∃ passed repo after, archive.repositories = passed ++ repo :: after ∧
    Passes target options t [] passed ∧ refusal target options t passed repo = some error ∧
    writes = archiveWrites target options t passed

variable (options archive t) in
theorem planRestore_comes (apart : target.Apart) : ∃ answer writes, Comes target options archive t answer writes := by
  rcases passes_or_refused target options t archive.repositories [] with
    passes | ⟨passed, repo, after, error, listed, passes, refused⟩
  · refine ⟨.ok (expected target options archive t), archiveWrites target options t archive.repositories, ?_, ?_, ?_⟩
    · intro dry
      have ran := planRestore_passes apart ((passes_as target options t dry archive.repositories []).2 passes)
      rw [expected_as, unlessDry_as] at ran
      exact ran
    · exact fun _ same => (Except.ok.inj same).symm
    · exact fun _ same => nomatch same
  · refine ⟨.error error, archiveWrites target options t passed, ?_, ?_, ?_⟩
    · intro dry
      have ran := planRestore_refused apart listed
        ((passes_as target options t dry passed []).2 passes) refused
      rw [unlessDry_as] at ran
      exact ran
    · exact fun _ same => nomatch same
    · intro error' same
      obtain rfl := Except.error.inj same
      exact ⟨passed, repo, after, listed, passes, refused, rfl⟩

theorem predicts_iff (apart : target.Apart) : Predicts target options archive t ↔ Harmless target options archive t := by
  constructor
  · intro predicts passed repo after error listed passes refused wrote
    have ran : (planRestore target (options.as false) archive).run t =
        answered (.error error) (runWrites (archiveWrites target options t passed) t) :=
      planRestore_refused apart listed
        ((passes_as target options t false passed []).2 passes) refused
    rw [answered_ok wrote] at ran
    obtain ⟨message, rfl⟩ := refusal_checked refused
    have untouched := predicts.unchanged false message (congrArg Prod.fst ran)
    rw [ran] at untouched
    exact untouched
  · intro harmless
    obtain ⟨answer, writes, comes⟩ := planRestore_comes options archive t apart
    have dryRan : (planRestore target (options.as true) archive).run t = (answer.map (RestoreReport.as true), t) := comes.ran true
    have wetRan : (planRestore target (options.as false) archive).run t =
        answered (answer.map (RestoreReport.as false)) (runWrites writes t) := comes.ran false
    constructor
    case dry => rw [dryRan]
    case same =>
      intro succeeds
      rcases answered_cases (answer.map (RestoreReport.as false)) (runWrites writes t) with wrote | ⟨message, failed⟩
      · rw [dryRan, wetRan, answered_ok wrote]
        cases answer <;> rfl
      · exact absurd ((congrArg Prod.fst wetRan).trans failed) (succeeds message)
    case unchanged =>
      intro dry message failed
      cases dry with
      | true => rw [dryRan]
      | false =>
        rcases answered_cases (answer.map (RestoreReport.as false)) (runWrites writes t) with wrote | ⟨_, failed'⟩
        · rw [wetRan, answered_ok wrote] at failed ⊢
          cases answer with
          | ok _ => cases failed
          | error error =>
            obtain ⟨passed, repo, after, listed, passes, refused, rfl⟩ := comes.refused error rfl
            exact harmless passed repo after error listed passes refused wrote
        · rw [wetRan, failed'] at failed
          cases failed
    case counted =>
      intro dry report done
      rw [comes.ran dry] at done
      rcases answered_cases (answer.map (RestoreReport.as dry)) (runWrites (if dry then [] else writes) t) with
        wrote | ⟨_, failed⟩
      · rw [answered_ok wrote] at done
        cases answer with
        | error _ => cases done
        | ok report' =>
          obtain rfl := Except.ok.inj done
          obtain rfl := comes.passed report' rfl
          obtain ⟨⟩ := expected_counted target options archive t
          constructor <;> assumption
      · rw [failed] at done
        cases done

end Prediction

section Demo

def rocketNamed (name : String) (issues : List NormalizedIssue) : RepositoryArchive :=
  ⟨"acme", name, none, .privately, "main", false, false, none, [], [], issues, [], [], [], [], [], [], none⟩

def restoreBug : NormalizedIssue := ⟨1, "bug", none, .opened, none, [], [], none, none, none, none⟩

def restorable (repositories : List RepositoryArchive) : Archive :=
  { Archive.new ⟨0, 0⟩ .gitHub "github-export" with repositories }

def restoreAll : RestoreOptions := ⟨true, false, true, true, true⟩

def emptyTarget : InMemoryRestoreTarget := ⟨[], 0, 0, 0, 0, 0⟩

end Demo

theorem two_rockets_predicted : Predicts inMemory restoreAll
    (restorable [rocketNamed "one" [restoreBug], rocketNamed "two" [restoreBug]]) emptyTarget := by
  apply (predicts_iff inMemory_apart).2
  intro passed repo after error listed passes refused wrote
  match passed, listed with
  | [], _ => rfl
  | [first], listed =>
    obtain ⟨rfl, rfl, rfl⟩ : rocketNamed "one" [restoreBug] = first ∧ rocketNamed "two" [restoreBug] = repo ∧ after = [] := by
      simpa [restorable] using listed
    cases refused
  | _ :: _ :: _ :: _, listed => simp [restorable] at listed

/-- The second repository has one number twice, and the first one is there when this is found. -/
theorem half_restored : ¬ Predicts inMemory restoreAll
    (restorable [rocketNamed "one" [], rocketNamed "two" [restoreBug, restoreBug]]) emptyTarget := by
  intro predicts
  have untouched := predicts.unchanged false "duplicate issue 1" rfl
  cases untouched

end Jeryu.Mirror
