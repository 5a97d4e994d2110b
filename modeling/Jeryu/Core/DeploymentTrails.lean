import Mathlib.Data.List.Dedup
import Jeryu.Core.Writes
import Jeryu.Library.Latest
import Jeryu.Core.Runs

/-!
Deployments and their append-only status trail. A deployment's outcome changes only by appending a
status, that of the deployments a success replaces among them.
-/

namespace Jeryu.Core

open KeyedMap HashMap LockProgram

inductive DeploymentState where
  | error
  | failure
  | inactive
  | inProgress
  | queued
  | pending
  | success
  deriving DecidableEq

structure DeploymentStatus where
  id : Nat
  deploymentId : Nat
  state : DeploymentState
  description : Option String
  environmentUrl : Option String
  logUrl : Option String
  creator : String
  createdAt : DateTime

structure CreateDeploymentStatusRequest where
  state : DeploymentState
  description : Option String
  environmentUrl : Option String
  logUrl : Option String
  autoInactive : Bool

structure DeploymentWithStatus where
  deployment : Deployment
  status : Option DeploymentStatus
  succeeded : Bool

structure EnvironmentSummary where
  environment : String
  latest : Option DeploymentWithStatus
  current : Option DeploymentWithStatus
  previous : Option DeploymentWithStatus

/-- The core with the trails, which nothing else in it reads or writes. -/
structure TrackedCore where
  core : ForgeCore
  deploymentStatuses : HashMap Nat (List DeploymentStatus)
  /-- What SQLite answers to the rows of some statuses. -/
  appendDeploymentStatuses : List DeploymentStatus → Except ForgeError Unit

namespace TrackedCore

def trail (tracked : TrackedCore) (id : Nat) : List DeploymentStatus :=
  (tracked.deploymentStatuses.lookup id).getD []

/-- `deployments.values()`, by their ids. -/
def deployments (tracked : TrackedCore) : List Deployment :=
  (tracked.core.state.deployments.pairs.insertionSort fun a b => a.1 ≤ b.1).map Prod.snd

def findRepositoryId (tracked : TrackedCore) (owner repo : String) : Except ForgeError Uuid :=
  match tracked.core.state.repos.lookup (owner, repo) with
  | some repository => .ok repository.id
  | none => .error (.notFound s!"repository {owner}/{repo}")

def findDeployment (tracked : TrackedCore) (repositoryId : Uuid) (id : Nat) :
    Except ForgeError Deployment :=
  match (tracked.core.state.deployments.lookup id).filter (·.repositoryId = repositoryId) with
  | some deployment => .ok deployment
  | none => .error (.notFound s!"deployment {id} in repository {repositoryId}")

def latestStatus (tracked : TrackedCore) (id : Nat) : Option DeploymentStatus :=
  (tracked.deploymentStatuses.lookup id).bind List.getLast?

def nextDeploymentStatusId (tracked : TrackedCore) : Nat :=
  ((tracked.deploymentStatuses.values.flatten.map DeploymentStatus.id).max?.map (· + 1)).getD 1

def pushStatuses (rows : HashMap Nat (List DeploymentStatus)) (statuses : List DeploymentStatus) :
    HashMap Nat (List DeploymentStatus) :=
  statuses.foldl (fun rows status => rows.push status.deploymentId status) rows

/-- The rows first, then memory. -/
def appendStatuses (tracked : TrackedCore) (statuses : List DeploymentStatus) :
    Except ForgeError TrackedCore :=
  let appended := if tracked.core.storage.isSome then tracked.appendDeploymentStatuses statuses else .ok ()
  match appended with
  | .error error => .error error
  | .ok () => .ok { tracked with deploymentStatuses := pushStatuses tracked.deploymentStatuses statuses }

/-- The deployments a success of this one replaces. -/
def superseded (tracked : TrackedCore) (repositoryId : Uuid) (deploymentId : Nat)
    (environment : String) : List Nat :=
  ((tracked.deployments.filter fun d =>
    d.id ≠ deploymentId && d.repositoryId = repositoryId && d.environment = environment &&
      !d.transientEnvironment).filter fun d =>
    (tracked.latestStatus d.id).map DeploymentStatus.state = some .success).map Deployment.id

def inactiveStatus (status : DeploymentStatus) (id deploymentId : Nat) : DeploymentStatus where
  id
  deploymentId
  state := .inactive
  description := some s!"superseded by deployment {status.deploymentId}"
  environmentUrl := none
  logUrl := none
  creator := status.creator
  createdAt := status.createdAt

/-- The status and one for each deployment it replaces, numbered on by their position. -/
def pendingStatuses (status : DeploymentStatus) (superseded : List Nat) : List DeploymentStatus :=
  superseded.foldl (fun pending id => pending ++ [inactiveStatus status (status.id + pending.length) id])
    [status]

def createDeploymentStatusLocked (owner repo : String) (deploymentId : Nat) (creator : String)
    (request : CreateDeploymentStatusRequest) (tracked : TrackedCore) :
    Except ForgeError (DeploymentStatus × TrackedCore) := do
  let repositoryId ← tracked.findRepositoryId owner repo
  let deployment ← tracked.findDeployment repositoryId deploymentId
  let status : DeploymentStatus :=
    { id := tracked.nextDeploymentStatusId, deploymentId, state := request.state
      description := request.description, environmentUrl := request.environmentUrl
      logUrl := request.logUrl, creator, createdAt := tracked.core.now }
  let pending := if request.state = .success ∧ request.autoInactive
    then pendingStatuses status (tracked.superseded repositoryId deploymentId deployment.environment)
    else [status]
  let appended ← tracked.appendStatuses pending
  return (status, appended)

def withStatus (tracked : TrackedCore) (deployment : Deployment) : DeploymentWithStatus where
  deployment
  status := tracked.latestStatus deployment.id
  succeeded := (tracked.trail deployment.id).any (·.state = .success)

/-- The last of the items whose key is greatest; an item without a key comes before all with one. -/
def maxByKey (items : List DeploymentWithStatus) (key : DeploymentWithStatus → Option Nat) :
    Option DeploymentWithStatus :=
  Latest.latest (fun item => ((key item).map (· + 1)).getD 0) items

def summarizeEnvironment (tracked : TrackedCore) (repositoryId : Uuid) (environment : String) :
    EnvironmentSummary :=
  let newestFirst := (tracked.deployments.reverse.filter fun d =>
    d.repositoryId = repositoryId && d.environment = environment).map tracked.withStatus
  let current := maxByKey (newestFirst.filter fun d => d.status.any (·.state = .success))
    fun d => d.status.map DeploymentStatus.id
  let previous := current.bind fun live =>
    maxByKey (newestFirst.filter fun d => d.deployment.id ≠ live.deployment.id && d.succeeded) fun d =>
      ((tracked.trail d.deployment.id).reverse.find? (·.state = .success)).map DeploymentStatus.id
  { environment, latest := newestFirst.head?, current, previous }

/-- Every environment the repository has deployed to, alphabetically. -/
def deploymentEnvironments (tracked : TrackedCore) (owner repo : String) :
    Except ForgeError (List EnvironmentSummary) := do
  let repositoryId ← tracked.findRepositoryId owner repo
  let names := sortedSet ((tracked.deployments.filter (·.repositoryId = repositoryId)).map
    Deployment.environment)
  return names.map (tracked.summarizeEnvironment repositoryId)

end TrackedCore

inductive TrailCall where
  | createDeployment (owner repo creator : String) (request : CreateDeploymentRequest)
  | createDeploymentStatus (owner repo : String) (deploymentId : Nat) (creator : String)
      (request : CreateDeploymentStatusRequest)

def TrailCall.Answer : TrailCall → Type
  | createDeployment .. => Deployment
  | createDeploymentStatus .. => DeploymentStatus

abbrev TrailCall.Reply (call : TrailCall) : Type := Except Failure call.Answer

def TrackedCore.withCore (core : ForgeCore) (tracked : TrackedCore) : TrackedCore := { tracked with core }

def TrailCall.program : (call : TrailCall) → Program TrackedCore call.Reply
  | .createDeployment owner repo creator request =>
    (Core.createDeployment owner repo creator request).run.zoom TrackedCore.core TrackedCore.withCore
  | .createDeploymentStatus owner repo deploymentId creator request =>
    let section_ := TrackedCore.createDeploymentStatusLocked owner repo deploymentId creator request
    .write (fun tracked => match section_ tracked with
        | .ok (_, appended) => appended
        | .error _ => tracked)
      fun tracked => .done (((section_ tracked).map Prod.fst).mapError .error)

section Trails

variable {tracked tracked' : TrackedCore} {rows : HashMap Nat (List DeploymentStatus)}
variable {statuses : List DeploymentStatus} {status : DeploymentStatus} {ids : List Nat}

/-- The rows a batch adds to a trail, at its end. -/
theorem lookup_pushStatuses (id : Nat) : ((TrackedCore.pushStatuses rows statuses).lookup id).getD [] =
    (rows.lookup id).getD [] ++ statuses.filter (·.deploymentId = id) := by
  unfold TrackedCore.pushStatuses
  induction statuses generalizing rows with
  | nil => simp
  | cons status rest ih =>
    rw [List.foldl_cons, ih, HashMap.lookup_push]
    by_cases own : id = status.deploymentId
    · subst own
      simp
    · rw [if_neg own]
      have other : ¬status.deploymentId = id := fun same => own same.symm
      simp [other]

/-- Trails of their own deployments, each numbered upwards, no number in two of them. -/
structure TrackedCore.TrailsSound (tracked : TrackedCore) : Prop where
  keyed : tracked.core.state.deployments.Every fun id deployment => deployment.id = id
  own : ∀ id, ∀ status ∈ tracked.trail id, status.deploymentId = id
  rising : ∀ id, (tracked.trail id).Pairwise fun earlier later => earlier.id < later.id
  apart : ∀ id id', ∀ status ∈ tracked.trail id, ∀ status' ∈ tracked.trail id',
    status.id = status'.id → id = id'

/-- Every status so far is numbered below `next`. -/
def TrackedCore.Below (tracked : TrackedCore) (next : Nat) : Prop :=
  ∀ id, ∀ status ∈ tracked.trail id, status.id < next

theorem trail_lookup {id : Nat} (member : status ∈ tracked.trail id) :
    ∃ trail, tracked.deploymentStatuses.lookup id = some trail ∧ status ∈ trail := by
  unfold TrackedCore.trail at member
  cases found : tracked.deploymentStatuses.lookup id with
  | none =>
    rw [found] at member
    cases member
  | some trail =>
    rw [found] at member
    exact ⟨trail, rfl, member⟩

theorem nextDeploymentStatusId_above : tracked.Below tracked.nextDeploymentStatusId := by
  intro id status member
  obtain ⟨trail, found, listed⟩ := trail_lookup member
  have known : status.id ∈ tracked.deploymentStatuses.values.flatten.map DeploymentStatus.id := by
    apply List.mem_map_of_mem
    exact List.mem_flatten.mpr ⟨trail, HashMap.mem_values.mpr ⟨id, found⟩, listed⟩
  unfold TrackedCore.nextDeploymentStatusId
  cases most : (tracked.deploymentStatuses.values.flatten.map DeploymentStatus.id).max? with
  | none =>
    rw [List.max?_eq_none_iff.mp most] at known
    cases known
  | some greatest =>
    have le := (List.max?_eq_some_iff.mp most).2 status.id known
    show status.id < greatest + 1
    omega

/-- A batch is numbered upwards from `next`. -/
structure Batch (next : Nat) (statuses : List DeploymentStatus) : Prop where
  rising : statuses.Pairwise fun earlier later => earlier.id < later.id
  above : ∀ status ∈ statuses, next ≤ status.id

theorem pendingStatuses_concat (id : Nat) : TrackedCore.pendingStatuses status (ids ++ [id]) =
    TrackedCore.pendingStatuses status ids ++ [TrackedCore.inactiveStatus status
      (status.id + (TrackedCore.pendingStatuses status ids).length) id] := by
  unfold TrackedCore.pendingStatuses
  rw [List.foldl_append]
  rfl

theorem pendingStatuses_batch : Batch status.id (TrackedCore.pendingStatuses status ids) ∧
    ∀ row ∈ TrackedCore.pendingStatuses status ids,
      row.id < status.id + (TrackedCore.pendingStatuses status ids).length := by
  induction ids using List.reverseRecOn with
  | nil =>
    refine ⟨⟨List.pairwise_singleton _ _, ?_⟩, ?_⟩
    · intro row only
      rw [List.mem_singleton.mp only]
    · intro row only
      rw [List.mem_singleton.mp only]
      exact Nat.lt_succ_self _
  | append_singleton ids id ih =>
    obtain ⟨batch, below⟩ := ih
    rw [pendingStatuses_concat]
    refine ⟨⟨?_, ?_⟩, ?_⟩
    · rw [List.pairwise_append]
      refine ⟨batch.rising, List.pairwise_singleton _ _, fun row member last only => ?_⟩
      rw [List.mem_singleton.mp only]
      exact below row member
    · intro row member
      rcases List.mem_append.mp member with earlier | only
      · exact batch.above row earlier
      · rw [List.mem_singleton.mp only]
        exact Nat.le_add_right _ _
    · intro row member
      rw [List.length_append, List.length_singleton]
      rcases List.mem_append.mp member with earlier | only
      · have lower := below row earlier
        omega
      · rw [List.mem_singleton.mp only]
        exact Nat.lt_succ_self _

/-- Who a batch is about: the deployment itself once, and each of those it replaces. -/
theorem mem_pendingStatuses {row : DeploymentStatus} (member : row ∈ TrackedCore.pendingStatuses status ids) :
    row = status ∨ row.state = .inactive ∧ row.deploymentId ∈ ids := by
  induction ids using List.reverseRecOn with
  | nil => exact .inl (List.mem_singleton.mp member)
  | append_singleton ids id ih =>
    rw [pendingStatuses_concat] at member
    rcases List.mem_append.mp member with earlier | only
    · rcases ih earlier with same | ⟨inactive, listed⟩
      · exact .inl same
      · exact .inr ⟨inactive, List.mem_append_left _ listed⟩
    · rw [List.mem_singleton.mp only]
      exact .inr ⟨rfl, by simp [TrackedCore.inactiveStatus]⟩

theorem pendingStatuses_covers {id : Nat} (listed : id ∈ ids) :
    ∃ row ∈ TrackedCore.pendingStatuses status ids, row.deploymentId = id ∧ row.state = .inactive := by
  induction ids using List.reverseRecOn with
  | nil => cases listed
  | append_singleton ids last ih =>
    rw [pendingStatuses_concat]
    rcases List.mem_append.mp listed with earlier | only
    · obtain ⟨row, member, own, inactive⟩ := ih earlier
      exact ⟨row, List.mem_append_left _ member, own, inactive⟩
    · rw [List.mem_singleton.mp only]
      exact ⟨_, List.mem_append_right _ (List.mem_singleton_self _), rfl, rfl⟩

/-- The trails after a batch. -/
theorem trail_appended (pushed : tracked'.deploymentStatuses =
    TrackedCore.pushStatuses tracked.deploymentStatuses statuses) (id : Nat) :
    tracked'.trail id = tracked.trail id ++ statuses.filter (·.deploymentId = id) := by
  unfold TrackedCore.trail
  rw [pushed, lookup_pushStatuses]

/-- A batch numbered from past every status keeps the trails sound. -/
theorem TrackedCore.TrailsSound.append {next : Nat} (sound : tracked.TrailsSound)
    (below : tracked.Below next) (batch : Batch next statuses) (core : tracked'.core = tracked.core)
    (pushed : tracked'.deploymentStatuses =
      TrackedCore.pushStatuses tracked.deploymentStatuses statuses) : tracked'.TrailsSound := by
  have split (id : Nat) (row : DeploymentStatus) (member : row ∈ tracked'.trail id) :
      row ∈ tracked.trail id ∨ row ∈ statuses ∧ row.deploymentId = id := by
    rw [trail_appended pushed] at member
    rcases List.mem_append.mp member with old | new
    · exact .inl old
    · obtain ⟨listed, own⟩ := List.mem_filter.mp new
      exact .inr ⟨listed, of_decide_eq_true own⟩
  constructor
  · rw [core]
    exact sound.keyed
  · intro id row member
    rcases split id row member with old | ⟨-, own⟩
    · exact sound.own id row old
    · exact own
  · intro id
    rw [trail_appended pushed, List.pairwise_append]
    refine ⟨sound.rising id, batch.rising.filter _, fun row old last new => ?_⟩
    have lower := below id row old
    have above := batch.above last (List.mem_of_mem_filter new)
    omega
  · intro id id' row member row' member' same
    rcases split id row member with old | ⟨listed, own⟩
    · rcases split id' row' member' with old' | ⟨listed', own'⟩
      · exact sound.apart id id' row old row' old' same
      · have lower := below id row old
        have above := batch.above row' listed'
        omega
    · rcases split id' row' member' with old' | ⟨listed', own'⟩
      · have lower := below id' row' old'
        have above := batch.above row listed
        omega
      · have distinct : (statuses.map DeploymentStatus.id).Nodup :=
          List.pairwise_map.mpr (batch.rising.imp fun less => Nat.ne_of_lt less)
        rw [← own, ← own', List.inj_on_of_nodup_map distinct listed listed' same]

theorem mem_deployments {deployment : Deployment} : deployment ∈ tracked.deployments ↔
    ∃ id, tracked.core.state.deployments.lookup id = some deployment := by
  unfold TrackedCore.deployments
  rw [List.mem_map]
  constructor
  · intro listed
    obtain ⟨⟨id, stored⟩, member, rfl⟩ := listed
    rw [List.mem_insertionSort] at member
    exact ⟨id, HashMap.mem_pairs.mp member⟩
  · intro known
    obtain ⟨id, found⟩ := known
    refine ⟨(id, deployment), ?_, rfl⟩
    rw [List.mem_insertionSort]
    exact HashMap.mem_pairs.mpr found

theorem latestStatus_eq (id : Nat) : tracked.latestStatus id = (tracked.trail id).getLast? := by
  unfold TrackedCore.latestStatus TrackedCore.trail
  cases tracked.deploymentStatuses.lookup id <;> rfl

theorem filter_own (other : status.deploymentId ∉ ids) :
    (TrackedCore.pendingStatuses status ids).filter (·.deploymentId = status.deploymentId) = [status] := by
  induction ids using List.reverseRecOn with
  | nil => simp [TrackedCore.pendingStatuses]
  | append_singleton ids id ih =>
    have apart : ¬id = status.deploymentId := fun same => other (by simp [same])
    have earlier := ih fun listed => other (List.mem_append_left _ listed)
    rw [pendingStatuses_concat, List.filter_append, earlier]
    simp [TrackedCore.inactiveStatus, apart]

/-- What `create_deployment_status` found and appended. -/
structure TrackedCore.Appends (tracked tracked' : TrackedCore) (owner repo : String) (deploymentId : Nat)
    (request : CreateDeploymentStatusRequest) (status : DeploymentStatus) (deployment : Deployment) :
    Prop where
  located : tracked.findRepositoryId owner repo = .ok deployment.repositoryId
  found : tracked.core.state.deployments.lookup deploymentId = some deployment
  next : status.id = tracked.nextDeploymentStatusId
  own : status.deploymentId = deploymentId
  state : status.state = request.state
  core : tracked'.core = tracked.core
  pushed : tracked'.deploymentStatuses = TrackedCore.pushStatuses tracked.deploymentStatuses
    (TrackedCore.pendingStatuses status (if request.state = .success ∧ request.autoInactive
      then tracked.superseded deployment.repositoryId deploymentId deployment.environment else []))

theorem createDeploymentStatusLocked_ok {owner repo creator : String} {deploymentId : Nat}
    {request : CreateDeploymentStatusRequest}
    (done : TrackedCore.createDeploymentStatusLocked owner repo deploymentId creator request tracked =
      .ok (status, tracked')) :
    ∃ deployment, tracked.Appends tracked' owner repo deploymentId request status deployment := by
  unfold TrackedCore.createDeploymentStatusLocked at done
  cases located : tracked.findRepositoryId owner repo with
  | error error =>
    rw [located] at done
    cases done
  | ok repositoryId =>
    rw [located] at done
    change (tracked.findDeployment repositoryId deploymentId >>= _) = _ at done
    unfold TrackedCore.findDeployment at done
    cases found : (tracked.core.state.deployments.lookup deploymentId).filter
        (·.repositoryId = repositoryId) with
    | none =>
      rw [found] at done
      cases done
    | some deployment =>
      rw [found] at done
      obtain ⟨stored, same⟩ := Option.filter_eq_some_iff.mp found
      have owned : deployment.repositoryId = repositoryId := of_decide_eq_true same
      let made : DeploymentStatus :=
        { id := tracked.nextDeploymentStatusId, deploymentId, state := request.state
          description := request.description, environmentUrl := request.environmentUrl
          logUrl := request.logUrl, creator, createdAt := tracked.core.now }
      let ids := if request.state = .success ∧ request.autoInactive
        then tracked.superseded repositoryId deploymentId deployment.environment else []
      have batch : (if request.state = .success ∧ request.autoInactive
          then TrackedCore.pendingStatuses made
            (tracked.superseded repositoryId deploymentId deployment.environment) else [made]) =
          TrackedCore.pendingStatuses made ids := by
        by_cases replaces : request.state = .success ∧ request.autoInactive
        · simp only [ids, if_pos replaces]
        · simp only [ids, if_neg replaces]
          rfl
      change (tracked.appendStatuses (if request.state = .success ∧ request.autoInactive
          then TrackedCore.pendingStatuses made
            (tracked.superseded repositoryId deploymentId deployment.environment) else [made]) >>=
        fun appended => pure (made, appended)) = .ok (status, tracked') at done
      rw [batch] at done
      unfold TrackedCore.appendStatuses at done
      dsimp only at done
      split at done
      · cases done
      · have both := Prod.mk.inj (Except.ok.inj done)
        rw [← both.1, ← both.2]
        subst owned
        exact ⟨deployment, located, stored, rfl, rfl, rfl, rfl, rfl⟩

variable {owner repo : String} {deploymentId : Nat} {request : CreateDeploymentStatusRequest}
variable {deployment : Deployment}

theorem TrackedCore.Appends.sound (appends : tracked.Appends tracked' owner repo deploymentId request status
    deployment) (sound : tracked.TrailsSound) : tracked'.TrailsSound := by
  refine sound.append ?_ pendingStatuses_batch.1 appends.core appends.pushed
  rw [appends.next]
  exact nextDeploymentStatusId_above

/-- The trails of a deployment that is not the one a status is posted to. -/
theorem TrackedCore.Appends.others (appends : tracked.Appends tracked' owner repo deploymentId request
    status deployment) {id : Nat} (other : id ≠ deploymentId) :
    tracked'.trail id = tracked.trail id ∨ ∃ last, tracked'.latestStatus id = some last ∧
      last.state = .inactive := by
  rw [trail_appended appends.pushed]
  cases new : (TrackedCore.pendingStatuses status _).filter (·.deploymentId = id) using List.reverseRecOn with
  | nil => exact .inl (List.append_nil _)
  | append_singleton earlier last =>
    right
    have listed : last ∈ (TrackedCore.pendingStatuses status
        (if request.state = .success ∧ request.autoInactive
          then tracked.superseded deployment.repositoryId deploymentId deployment.environment
          else [])).filter (·.deploymentId = id) := by
      rw [new]
      simp
    obtain ⟨member, own⟩ := List.mem_filter.mp listed
    have about : last.deploymentId = id := of_decide_eq_true own
    refine ⟨last, ?_, ?_⟩
    · rw [latestStatus_eq, trail_appended appends.pushed, new, ← List.append_assoc]
      exact List.getLast?_concat
    · rcases mem_pendingStatuses member with same | ⟨inactive, -⟩
      · rw [same, appends.own] at about
        exact absurd about.symm other
      · exact inactive

/-- A deployment that a success of `deployment` makes inactive, if it is live itself. -/
structure Deployment.Rivals (rival deployment : Deployment) : Prop where
  other : rival.id ≠ deployment.id
  repository : rival.repositoryId = deployment.repositoryId
  environment : rival.environment = deployment.environment
  lasting : rival.transientEnvironment = false

/-- After a success `deployment` alone is live in its environment, and is reported so. -/
structure TrackedCore.Replaced (tracked tracked' : TrackedCore) (owner repo : String)
    (status : DeploymentStatus) (deployment : Deployment) : Prop where
  newest : tracked'.latestStatus deployment.id = some status
  rivals : ∀ id rival, tracked'.core.state.deployments.lookup id = some rival → rival.Rivals deployment →
    (tracked'.latestStatus id).map DeploymentStatus.state ≠ some .success
  kept : ∀ id, id ≠ deployment.id → tracked'.trail id ≠ tracked.trail id →
    ∃ rival, tracked.core.state.deployments.lookup id = some rival ∧ rival.Rivals deployment ∧
      (tracked.latestStatus id).map DeploymentStatus.state = some .success
  reported : ∃ summaries, tracked'.deploymentEnvironments owner repo = .ok summaries ∧
    (∃ summary ∈ summaries, summary.environment = deployment.environment) ∧
    ∀ summary ∈ summaries, summary.environment = deployment.environment →
      summary.current = some (tracked'.withStatus deployment)

theorem mem_superseded (sound : tracked.TrailsSound)
    (found : tracked.core.state.deployments.lookup deploymentId = some deployment) {id : Nat} :
    id ∈ tracked.superseded deployment.repositoryId deploymentId deployment.environment ↔
      ∃ rival, tracked.core.state.deployments.lookup id = some rival ∧ rival.Rivals deployment ∧
        (tracked.latestStatus id).map DeploymentStatus.state = some .success := by
  have own : deployment.id = deploymentId := sound.keyed _ _ found
  unfold TrackedCore.superseded
  simp only [List.mem_map, List.mem_filter, mem_deployments, Bool.and_eq_true, decide_eq_true_eq,
    Bool.not_eq_true']
  constructor
  · intro listed
    obtain ⟨rival, ⟨⟨⟨key, stored⟩, ⟨⟨other, repository⟩, environment⟩, lasting⟩, live⟩, rfl⟩ := listed
    have same : rival.id = key := sound.keyed _ _ stored
    exact ⟨rival, same ▸ stored, ⟨own ▸ other, repository, environment, lasting⟩, live⟩
  · intro known
    obtain ⟨rival, stored, rivals, live⟩ := known
    have same : rival.id = id := sound.keyed _ _ stored
    subst same
    exact ⟨rival, ⟨⟨⟨rival.id, stored⟩, ⟨⟨own ▸ rivals.other, rivals.repository⟩, rivals.environment⟩,
      rivals.lasting⟩, live⟩, rfl⟩

/-- The newest success of an environment, among those each of its deployments stands at. -/
theorem summarizeEnvironment_current (keyed : tracked.core.state.deployments.Every fun id deployment =>
    deployment.id = id) (found : tracked.core.state.deployments.lookup deploymentId = some deployment)
    (newest : tracked.latestStatus deploymentId = some status) (succeeded : status.state = .success)
    (older : ∀ id last, id ≠ deploymentId → tracked.latestStatus id = some last → last.state = .success →
      last.id < status.id) :
    (tracked.summarizeEnvironment deployment.repositoryId deployment.environment).current =
      some (tracked.withStatus deployment) := by
  have own : deployment.id = deploymentId := keyed _ _ found
  let lives := ((tracked.deployments.reverse.filter fun d => d.repositoryId = deployment.repositoryId &&
    d.environment = deployment.environment).map tracked.withStatus).filter
      fun d => d.status.any (·.state = .success)
  have standing : (tracked.withStatus deployment).status = some status := by
    show tracked.latestStatus deployment.id = some status
    rw [own]
    exact newest
  have listed : tracked.withStatus deployment ∈ lives := by
    refine List.mem_filter.mpr ⟨List.mem_map_of_mem (List.mem_filter.mpr ⟨?_, by simp⟩), ?_⟩
    · exact List.mem_reverse.mpr (mem_deployments.mpr ⟨deploymentId, found⟩)
    · rw [standing]
      simp [succeeded]
  show TrackedCore.maxByKey lives (fun d => d.status.map DeploymentStatus.id) = _
  unfold TrackedCore.maxByKey
  cases greatest : Latest.latest (fun item : DeploymentWithStatus =>
      ((item.status.map DeploymentStatus.id).map (· + 1)).getD 0) lives with
  | none =>
    rw [Latest.latest_eq_none.mp greatest] at listed
    cases listed
  | some winner =>
    have le := Latest.latest_greatest greatest _ listed
    obtain ⟨member, live⟩ := List.mem_filter.mp (Latest.latest_mem greatest)
    obtain ⟨other, present, rfl⟩ := List.mem_map.mp member
    have stored := List.mem_reverse.mp (List.mem_of_mem_filter present)
    obtain ⟨id, there⟩ := mem_deployments.mp stored
    have named : other.id = id := keyed _ _ there
    obtain ⟨last, known, state⟩ := (Option.any_eq_true _ _).mp live
    change tracked.latestStatus other.id = some last at known
    have ahead : status.id ≤ last.id := by
      rw [standing, show (tracked.withStatus other).status = some last from known] at le
      exact Nat.le_of_succ_le_succ le
    have same : id = deploymentId := by
      by_contra differs
      have less := older id last differs (named ▸ known) (of_decide_eq_true state)
      omega
    subst same
    cases there.symm.trans found
    rfl

theorem TrackedCore.Appends.posted (appends : tracked.Appends tracked' owner repo deploymentId request
    status deployment) (sound : tracked.TrailsSound) :
    tracked'.trail deploymentId = tracked.trail deploymentId ++ [status] := by
  rw [trail_appended appends.pushed]
  have self : status.deploymentId ∉ (if request.state = .success ∧ request.autoInactive
      then tracked.superseded deployment.repositoryId deploymentId deployment.environment else []) := by
    rw [appends.own]
    split
    · intro listed
      obtain ⟨rival, stored, rivals, -⟩ := (mem_superseded sound appends.found).mp listed
      cases stored.symm.trans appends.found
      exact rivals.other rfl
    · exact List.not_mem_nil
  have mine := filter_own self
  rw [appends.own] at mine
  rw [mine]

theorem TrackedCore.Appends.replaced (appends : tracked.Appends tracked' owner repo deploymentId request
    status deployment) (sound : tracked.TrailsSound) (succeeds : request.state = .success)
    (auto : request.autoInactive = true) : tracked.Replaced tracked' owner repo status deployment := by
  have own : deployment.id = deploymentId := sound.keyed _ _ appends.found
  have pushed := appends.pushed
  rw [if_pos ⟨succeeds, auto⟩] at pushed
  have newest : tracked'.latestStatus deploymentId = some status := by
    rw [latestStatus_eq, appends.posted sound]
    exact List.getLast?_concat
  have changed (id : Nat) (other : id ≠ deploymentId) (differs : tracked'.trail id ≠ tracked.trail id) :
      id ∈ tracked.superseded deployment.repositoryId deploymentId deployment.environment := by
    by_contra outside
    apply differs
    rw [trail_appended pushed]
    have none : (TrackedCore.pendingStatuses status (tracked.superseded deployment.repositoryId
        deploymentId deployment.environment)).filter (·.deploymentId = id) = [] := by
      apply List.filter_eq_nil_iff.mpr
      intro row member about
      have same : row.deploymentId = id := of_decide_eq_true about
      rcases mem_pendingStatuses member with rfl | ⟨-, listed⟩
      · exact other (same.symm.trans appends.own)
      · exact outside (same ▸ listed)
    rw [none, List.append_nil]
  have inactive (id : Nat) (other : id ≠ deploymentId)
      (live : (tracked'.latestStatus id).map DeploymentStatus.state = some .success) :
      tracked'.trail id = tracked.trail id := by
    rcases appends.others other with same | ⟨last, known, state⟩
    · exact same
    · rw [known, Option.map_some, state] at live
      cases live
  constructor
  · rw [own]
    exact newest
  · intro id rival stored rivals live
    rw [appends.core] at stored
    have named : rival.id = id := sound.keyed _ _ stored
    have other : id ≠ deploymentId := by
      rw [← named, ← own]
      exact rivals.other
    have same := inactive id other live
    have before : (tracked.latestStatus id).map DeploymentStatus.state = some .success := by
      rw [latestStatus_eq, ← same, ← latestStatus_eq]
      exact live
    have listed := (mem_superseded sound appends.found).mpr ⟨rival, stored, rivals, before⟩
    obtain ⟨row, member, about, -⟩ := @pendingStatuses_covers status _ id listed
    have grown := @trail_appended tracked tracked' _ pushed id
    rw [same] at grown
    have none := List.self_eq_append_right.mp grown
    have there := List.filter_eq_nil_iff.mp none row member
    exact there (decide_eq_true about)
  · intro id other differs
    exact (mem_superseded sound appends.found).mp (changed id (own ▸ other) differs)
  · have located : tracked'.findRepositoryId owner repo = .ok deployment.repositoryId := by
      have same := appends.located
      unfold TrackedCore.findRepositoryId at same ⊢
      rw [appends.core]
      exact same
    have found : tracked'.core.state.deployments.lookup deploymentId = some deployment := by
      rw [appends.core]
      exact appends.found
    have keyed := (appends.sound sound).keyed
    refine ⟨_, by rw [TrackedCore.deploymentEnvironments, located]; rfl, ?_, ?_⟩
    · refine ⟨_, List.mem_map_of_mem ?_, rfl⟩
      simp only [sortedSet, List.mem_dedup, List.mem_insertionSort]
      apply List.mem_map_of_mem
      exact List.mem_filter.mpr ⟨mem_deployments.mpr ⟨deploymentId, found⟩, by simp⟩
    · intro summary member environment
      obtain ⟨name, -, rfl⟩ := List.mem_map.mp member
      change name = deployment.environment at environment
      subst environment
      apply summarizeEnvironment_current keyed found newest (appends.state.trans succeeds)
      intro id last other known live
      have same := inactive id other (by rw [known, Option.map_some, live])
      have old : last ∈ tracked.trail id := by
        rw [latestStatus_eq, same] at known
        exact List.mem_of_getLast? known
      rw [appends.next]
      exact nextDeploymentStatusId_above id last old

end Trails

section Growth

variable {tracked tracked' tracked'' : TrackedCore}

def Deployment.unnamed (deployment : Deployment) : Deployment := { deployment with owner := "", repo := "" }

/-- Deployments stay but for the names their repository goes by, and trails grow at their end. What is
    new is numbered past all that was there. -/
structure TrackedCore.Grows (tracked tracked' : TrackedCore) : Prop where
  kept : ∀ id deployment, tracked.core.state.deployments.lookup id = some deployment →
    ∃ later, tracked'.core.state.deployments.lookup id = some later ∧ later.unnamed = deployment.unnamed
  opened : ∀ id deployment, tracked'.core.state.deployments.lookup id = some deployment →
    tracked.core.state.deployments.lookup id = none →
    ∀ earlier old, tracked.core.state.deployments.lookup earlier = some old → earlier < id
  longer : ∀ id, tracked.trail id <+: tracked'.trail id
  posted : ∀ id, ∀ status ∈ tracked'.trail id, status ∉ tracked.trail id →
    ∀ id', ∀ old ∈ tracked.trail id', old.id < status.id

theorem TrackedCore.Grows.refl : tracked.Grows tracked where
  kept _ deployment found := ⟨deployment, found, rfl⟩
  opened id deployment found none := by
    rw [none] at found
    cases found
  longer _ := List.prefix_refl _
  posted _ _ listed absent := absurd listed absent

theorem TrackedCore.Grows.trans (first : tracked.Grows tracked') (second : tracked'.Grows tracked'') :
    tracked.Grows tracked'' := by
  constructor
  · intro id deployment found
    obtain ⟨later, there, same⟩ := first.kept id deployment found
    obtain ⟨last, here, same'⟩ := second.kept id later there
    exact ⟨last, here, same'.trans same⟩
  · intro id deployment found none earlier old known
    cases middle : tracked'.core.state.deployments.lookup id with
    | some opened => exact first.opened id opened middle none earlier old known
    | none =>
      obtain ⟨later, there, -⟩ := first.kept earlier old known
      exact second.opened id deployment found middle earlier later there
  · exact fun id => (first.longer id).trans (second.longer id)
  · intro id status listed absent id' old known
    by_cases middle : status ∈ tracked'.trail id
    · exact first.posted id status middle absent id' old known
    · exact second.posted id status listed middle id' old ((first.longer id').subset known)

/-- A deployment is opened under an identifier past all others, or none is. -/
def ForgeCore.Opens (core core' : ForgeCore) (reply : Option (Except Failure Deployment)) : Prop :=
  (core'.state.deployments = core.state.deployments ∧ ∀ deployment, reply ≠ some (.ok deployment)) ∨
    ∃ deployment, reply = some (.ok deployment) ∧
      (∀ id old, core.state.deployments.lookup id = some old → id < deployment.id) ∧
      core'.state.deployments = core.state.deployments.insert deployment.id deployment

theorem createDeploymentLocked_opens {owner repo creator refName : String} {payload : Value}
    {production : Bool} {request : CreateDeploymentRequest} (core : ForgeCore) :
    let outcome := createDeploymentLocked owner repo creator refName payload production request core
    core.Opens (outcome.settle core).2 (some (outcome.settle core).1) := by
  intro outcome
  unfold outcome createDeploymentLocked
  split
  · exact .inl ⟨rfl, fun deployment same => nomatch same⟩
  · dsimp only
    split
    · exact .inl ⟨rfl, fun deployment same => nomatch same⟩
    · refine .inr ⟨_, rfl, fun id old found => ?_, rfl⟩
      have known : id ∈ core.state.deployments.keys :=
        AList.mem_keys.mpr (AList.lookup_isSome.mp (by rw [found]; rfl))
      show id < (core.state.deployments.keys.max?.map (· + 1)).getD 1
      cases most : core.state.deployments.keys.max? with
      | none =>
        rw [List.max?_eq_none_iff.mp most] at known
        cases known
      | some greatest =>
        have le := (List.max?_eq_some_iff.mp most).2 id known
        show id < greatest + 1
        omega

theorem createDeployment_opens (owner repo creator : String) (request : CreateDeploymentRequest) :
    (Core.createDeployment owner repo creator request).Writes ForgeCore.Opens := by
  unfold Core.createDeployment
  apply (Method.writes_ofExcept _).bind
  intro _
  apply (Method.writes_ofExcept _).bind
  intro _
  apply (Method.writes_ofExcept _).bind
  intro _
  cases request.refName with
  | some value =>
    apply (Method.writes_ofExcept _).bind
    intro _
    apply (Method.writes_pure _).bind
    exact fun _ => Method.writes_locked createDeploymentLocked_opens
  | none =>
    apply (Method.writes_pure _).bind
    exact fun _ => Method.writes_locked createDeploymentLocked_opens

/-- What the last section of a call does. -/
def TrailCall.Ends : (call : TrailCall) → TrackedCore → TrackedCore → Option call.Reply → Prop
  | .createDeployment .., tracked, tracked', reply =>
    tracked.core.Opens tracked'.core reply ∧ tracked'.deploymentStatuses = tracked.deploymentStatuses
  | .createDeploymentStatus owner repo id _ request, tracked, tracked', reply =>
    (tracked' = tracked ∧ ∀ status, reply ≠ some (.ok status)) ∨ ∃ status deployment,
      reply = some (.ok status) ∧ tracked.Appends tracked' owner repo id request status deployment

theorem TrailCall.program_ends (call : TrailCall) :
    call.program.Meets (fun _ => True) call.Ends (fun _ => True) := by
  cases call with
  | createDeployment owner repo creator request =>
    show (Program.zoom TrackedCore.core TrackedCore.withCore _).Meets _ _ _
    apply (createDeployment_opens owner repo creator request).meets.zoom.mono (fun _ h => h) _ fun _ h => h
    intro tracked tracked' reply _ known
    obtain ⟨core, opened, rfl⟩ := known
    exact ⟨opened, rfl⟩
  | createDeploymentStatus owner repo id creator request =>
    intro tracked _
    refine ⟨?_, True.intro⟩
    dsimp only
    cases done : TrackedCore.createDeploymentStatusLocked owner repo id creator request tracked with
    | error error => exact .inl ⟨rfl, fun status same => nomatch same⟩
    | ok both =>
      obtain ⟨status, appended⟩ := both
      obtain ⟨deployment, appends⟩ := createDeploymentStatusLocked_ok done
      exact .inr ⟨status, deployment, rfl, appends⟩

/-- What the last section of a call is known for. -/
def TrailCall.Kept : (call : TrailCall) → TrackedCore → TrackedCore → Option call.Reply → Prop
  | .createDeployment .., tracked, tracked', reply => ∀ deployment, reply = some (.ok deployment) →
    tracked.core.state.deployments.lookup deployment.id = none ∧
      tracked'.core.state.deployments.lookup deployment.id = some deployment
  | .createDeploymentStatus owner repo id _ request, tracked, tracked', reply =>
    ((∀ status, reply ≠ some (.ok status)) → tracked' = tracked) ∧
    ∀ status : DeploymentStatus, reply = some (.ok status) →
      tracked'.trail id = tracked.trail id ++ [status] ∧
      (request.state = .success → request.autoInactive → ∃ deployment,
        tracked.core.state.deployments.lookup id = some deployment ∧
        tracked.Replaced tracked' owner repo status deployment)

theorem TrailCall.Ends.kept {call : TrailCall} {reply : Option call.Reply} (sound : tracked.TrailsSound)
    (ends : call.Ends tracked tracked' reply) : call.Kept tracked tracked' reply := by
  cases call with
  | createDeployment owner repo creator request =>
    intro deployment answered
    rcases ends.1 with ⟨-, refused⟩ | ⟨opened, same, above, inserted⟩
    · exact absurd answered (refused deployment)
    · rw [same] at answered
      cases answered
      refine ⟨?_, by rw [inserted]; exact AList.lookup_insert _⟩
      cases found : tracked.core.state.deployments.lookup deployment.id with
      | none => rfl
      | some old => exact absurd (above _ old found) (Nat.lt_irrefl _)
  | createDeploymentStatus owner repo id creator request =>
    rcases ends with ⟨same, refused⟩ | ⟨status, deployment, answer, appends⟩
    · exact ⟨fun _ => same, fun status answered => absurd answered (refused status)⟩
    · refine ⟨fun refused => absurd answer (refused status), fun posted answered => ?_⟩
      rw [answer] at answered
      cases answered
      exact ⟨appends.posted sound, fun succeeds auto =>
        ⟨deployment, appends.found, appends.replaced sound succeeds auto⟩⟩

theorem TrailCall.Ends.sound {call : TrailCall} {reply : Option call.Reply} (sound : tracked.TrailsSound)
    (ends : call.Ends tracked tracked' reply) : tracked'.TrailsSound := by
  cases call with
  | createDeployment owner repo creator request =>
    obtain ⟨opens, same⟩ := ends
    have trails : tracked'.trail = tracked.trail := by
      unfold TrackedCore.trail
      rw [same]
    refine ⟨?_, by rw [trails]; exact sound.own, by rw [trails]; exact sound.rising,
      by rw [trails]; exact sound.apart⟩
    rcases opens with ⟨kept, -⟩ | ⟨opened, -, -, inserted⟩
    · rw [kept]
      exact sound.keyed
    · rw [inserted]
      exact HashMap.Every.insert sound.keyed rfl
  | createDeploymentStatus owner repo id creator request =>
    rcases ends with ⟨rfl, -⟩ | ⟨status, deployment, -, appends⟩
    · exact sound
    · exact appends.sound sound

theorem TrailCall.Ends.grows {call : TrailCall} {reply : Option call.Reply}
    (ends : call.Ends tracked tracked' reply) : tracked.Grows tracked' := by
  cases call with
  | createDeployment owner repo creator request =>
    obtain ⟨opens, same⟩ := ends
    have trails : tracked'.trail = tracked.trail := by
      unfold TrackedCore.trail
      rw [same]
    have longer (id : Nat) : tracked.trail id <+: tracked'.trail id :=
      (congrFun trails id) ▸ List.prefix_refl _
    have posted (id : Nat) (status : DeploymentStatus) (listed : status ∈ tracked'.trail id)
        (absent : status ∉ tracked.trail id) (id' : Nat) (old : DeploymentStatus)
        (_ : old ∈ tracked.trail id') : old.id < status.id := by
      rw [trails] at listed
      exact absurd listed absent
    rcases opens with ⟨kept, -⟩ | ⟨opened, -, above, inserted⟩
    · refine ⟨fun id deployment found => ⟨deployment, by rw [kept]; exact found, rfl⟩, ?_, longer, posted⟩
      intro id deployment found none
      rw [kept, none] at found
      cases found
    · have others (id : Nat) (other : id ≠ opened.id) : tracked'.core.state.deployments.lookup id =
          tracked.core.state.deployments.lookup id := by
        rw [inserted, lookup_insert_if, if_neg other]
      refine ⟨fun id deployment found => ?_, fun id deployment found none => ?_, longer, posted⟩
      · have other : id ≠ opened.id := Nat.ne_of_lt (above id deployment found)
        exact ⟨deployment, by rw [others id other]; exact found, rfl⟩
      · by_cases new : id = opened.id
        · rw [new]
          exact above
        · rw [others id new, none] at found
          cases found
  | createDeploymentStatus owner repo id creator request =>
    rcases ends with ⟨rfl, -⟩ | ⟨status, deployment, -, appends⟩
    · exact .refl
    · refine ⟨fun id deployment found => ⟨deployment, by rw [appends.core]; exact found, rfl⟩, ?_, ?_, ?_⟩
      · intro id deployment found none
        rw [appends.core, none] at found
        cases found
      · intro id
        rw [trail_appended appends.pushed]
        exact List.prefix_append _ _
      · intro id row listed absent id' old known
        rw [trail_appended appends.pushed] at listed
        rcases List.mem_append.mp listed with there | new
        · exact absurd there absent
        · have above := pendingStatuses_batch.1.above row (List.mem_of_mem_filter new)
          have below := nextDeploymentStatusId_above id' old known
          rw [← appends.next] at below
          omega

/-- The two calls, any number of them under way. What else goes on may change the core, and renames
    the deployments at most. -/
def trails : System TrackedCore TrailCall.Reply where
  program := TrailCall.program
  ambient tracked tracked' := tracked'.deploymentStatuses = tracked.deploymentStatuses ∧
    ∀ id, (tracked'.core.state.deployments.lookup id).map Deployment.unnamed =
      (tracked.core.state.deployments.lookup id).map Deployment.unnamed
  admits _ _ := True

theorem ambient_keyed (sound : tracked.TrailsSound) (moved : trails.ambient tracked tracked') :
    tracked'.TrailsSound ∧ tracked.Grows tracked' := by
  obtain ⟨same, renamed⟩ := moved
  have trails : tracked'.trail = tracked.trail := by
    unfold TrackedCore.trail
    rw [same]
  constructor
  · refine ⟨fun id deployment found => ?_, by rw [trails]; exact sound.own, by rw [trails]; exact sound.rising,
      by rw [trails]; exact sound.apart⟩
    have there := renamed id
    rw [found] at there
    obtain ⟨old, known, same⟩ := Option.map_eq_some_iff.mp there.symm
    have own : old.id = id := sound.keyed id old known
    rw [← own]
    exact (congrArg Deployment.id same).symm
  · constructor
    · intro id deployment found
      have there := renamed id
      rw [found] at there
      exact Option.map_eq_some_iff.mp there
    · intro id deployment found none
      have there := renamed id
      rw [found, none] at there
      cases there
    · exact fun id => (congrFun trails id) ▸ List.prefix_refl _
    · intro id status listed absent
      rw [trails] at listed
      exact absurd listed absent

theorem trails_certified : Certified trails (fun _ _ _ => True) TrackedCore.TrailsSound TrailCall.Ends
    fun _ _ => True where
  programs call := call.program_ends.mono (fun _ _ => True.intro) (fun _ _ _ _ h => h) fun _ h => h
  ambient _ _ sound moved := (ambient_keyed sound moved).1
  kept _ _ _ _ sound _ ends := ends.sound sound

end Growth

abbrev TrailPool := Config TrackedCore TrailCall.Reply

/-- A core without a deployment, and no call under way. -/
structure TrailPool.Fresh (pool : TrailPool) : Prop where
  deployments : pool.shared.core.state.deployments = ∅
  statuses : pool.shared.deploymentStatuses = ∅
  idle : pool.tasks = []

/-- Deployments and statuses are numbered once and for all, and a success leaves one deployment of its
    environment live, however the calls are interleaved. -/
theorem trails_grow {start pool later : TrailPool} (fresh : start.Fresh)
    (run : Run trails (fun _ _ _ => True) start pool) (further : Run trails (fun _ _ _ => True) pool later) :
    pool.shared.TrailsSound ∧ pool.shared.Grows later.shared ∧ ∀ i call reply next,
      pool.Writes i call reply next → call.Kept pool.shared next.shared reply := by
  have empty (id : Nat) : start.shared.trail id = [] := by
    unfold TrackedCore.trail
    rw [fresh.statuses]
    rfl
  have begun : start.shared.TrailsSound := by
    constructor
    · rw [fresh.deployments]
      exact every_empty
    all_goals simp [empty]
  have idle : Sound TrackedCore.TrailsSound TrailCall.Ends (fun _ _ => True) start := by
    refine ⟨begun, fun task member => ?_⟩
    rw [fresh.idle] at member
    cases member
  have here := trails_certified.run run idle
  refine ⟨here.holds, ?_, fun i call reply next writes => (here.writes writes).kept here.holds⟩
  exact trails_certified.along (fun _ => .refl) (fun _ _ _ => .trans)
    (fun _ _ sound moved => (ambient_keyed sound moved).2) (fun _ _ _ _ _ _ ends => ends.grows) further here

section Demo

def trackedDemo : TrackedCore where
  core := (ForgeCore.inMemory.played [.alone .newDemo]).shared
  deploymentStatuses := ∅
  appendDeploymentStatuses _ := .ok ()

def shipDemo : TrailCall :=
  .createDeployment "acme" "demo" "ci"
    { sha := Call.demoHead, refName := none, task := "deploy", environment := "production"
      description := none, payload := none, productionEnvironment := none
      transientEnvironment := false }

def succeedDemo (id : Nat) : TrailCall :=
  .createDeploymentStatus "acme" "demo" id "ci"
    { state := .success, description := none, environmentUrl := none, logUrl := none, autoInactive := true }

def trailedPool (calls : List TrailCall) : TrailPool :=
  Config.play trails ⟨trackedDemo, []⟩ (calls.map .alone)

theorem trailed_run (calls : List TrailCall) :
    Run trails (fun _ _ _ => True) ⟨trackedDemo, []⟩ (trailedPool calls) := by
  apply play_run
  generalize (⟨trackedDemo, []⟩ : TrailPool) = pool
  induction calls generalizing pool with
  | nil => exact True.intro
  | cons call rest ih =>
    exact ⟨⟨True.intro, Program.permits_of_every (fun _ _ => True.intro) _ _⟩, ih _⟩

theorem fresh_trackedDemo : TrailPool.Fresh ⟨trackedDemo, []⟩ := ⟨rfl, rfl, rfl⟩

/-- Two deployments of one environment, the second of which replaces the first. -/
theorem shipped_twice :
    let pool := trailedPool [shipDemo, shipDemo, succeedDemo 1, succeedDemo 2]
    (pool.shared.trail 1).map (fun status => (status.id, status.state)) = [(1, .success), (3, .inactive)] ∧
      (pool.shared.trail 2).map (fun status => (status.id, status.state)) = [(2, .success)] ∧
      pool.shared.TrailsSound :=
  ⟨by decide +kernel, by decide +kernel, (trails_grow fresh_trackedDemo (trailed_run _) .refl).1⟩

end Demo

end Jeryu.Core
