import Jeryu.Core.CallSections
import Jeryu.Core.Coherence

namespace Jeryu.Core

open KeyedMap HashMap Relation

def State.Live (s : State) (slug : Slug) : Prop := ∃ repo, s.repos.lookup slug = some repo

/-- The repositories whose records a call may write. -/
def Call.touches (s : State) (slug : Slug) : Call → Prop
  | .grantRepoAccess _ _ owner repo _ | .grantRepoAccessChecked _ _ owner repo _
  | .revokeRepoAccess _ owner repo | .revokeRepoAccessChecked _ _ owner repo
  | .createLabel owner repo _ | .setBranchProtection owner repo _ _ | .setCodeowners owner repo _
  | .createIssue owner repo _ _ | .updateIssue owner repo _ _ | .addIssueComment owner repo _ _ _
  | .createCommitStatus owner repo _ _ _ | .createCheckRun owner repo _
  | .recordJankuraiScore owner repo _ | .createWebhook owner repo _ | .setRepositoryReadme owner repo _
  | .createPullRequest owner repo _ _ | .updatePullRequest owner repo _ _
  | .refreshPullRequestHeadsForRef owner repo _ _
  | .refreshPullRequestHeadsForRefWithDiff owner repo _ _ _ _
  | .retargetPullRequest _ owner repo _ _ _ | .recordPullRequestBase _ owner repo _ _ _
  | .finalizeMerge owner repo _ _ _ _ | .mergePullRequest owner repo _ _
  | .createReview owner repo _ _ _ | .dismissReview owner repo _ _ _ => slug = (owner, repo)
  | .refreshPullRequestHeadsFromGit owner repo _ _ _ _ _ => repoId owner repo = .ok slug
  | .finalizeMergeWithOverride _ permit _ => slug = (permit.owner, permit.repo)
  -- These look the repository up again under the lock.
  | .deleteBranchProtection .. | .rekeyEncodedBranchProtections .. =>
    ∃ repo, s.repos.lookup slug = some repo ∧ repo.archived = false
  | .setRepositoryDefaultBranch .. | .setDefaultBranchProtectionOptOut .. => s.Live slug
  | _ => False

/-- The calls that create records for a repository without looking it up again under the
    lock. -/
def Call.Opens : Call → Prop
  | .grantRepoAccess .. | .grantRepoAccessChecked .. | .createLabel .. | .setBranchProtection ..
  | .setCodeowners .. | .createIssue .. | .createCommitStatus .. | .createCheckRun ..
  | .recordJankuraiScore .. | .createWebhook .. | .setRepositoryReadme ..
  | .createPullRequest .. => True
  | _ => False

/-- The calls that create, drop or move a repository. -/
def Call.Shifts : Call → Prop
  | .createRepository .. | .deleteRepository .. | .renameRepository ..
  | .commitRepositoryTransfer .. => True
  | _ => False

def Call.updates (s : State) (pr : PullRequest) (asked : UpdatePullRequestRequest) : Call → Prop
  | .updatePullRequest owner repo number request =>
    s.pulls.lookup (owner, repo, number) = some pr ∧ asked = request
  | _ => False

def Call.protects (rule : BranchProtectionRule) : Call → Prop
  | .setBranchProtection owner repo branch request => ∃ now, rule = request.rule owner repo branch now
  | _ => False

/-- The calls that open a transfer journal, or close it without a move. -/
def Call.Journals : Call → Prop
  | .prepareRepositoryTransfer .. | .failRepositoryTransfer .. => True
  | _ => False

def Call.Drops : Call → Prop
  | .deleteRepository .. => True
  | _ => False

def Call.Dismisses : Call → Prop
  | .dismissReview .. => True
  | _ => False

def Call.Deploys : Call → Prop
  | .createDeployment .. => True
  | _ => False

/-- The calls that write the protection rules of a repository that stays where it is. -/
def Call.Rules : Call → Prop
  | .setBranchProtection .. | .deleteBranchProtection .. | .rekeyEncodedBranchProtections ..
  | .setRepositoryDefaultBranch .. | .setDefaultBranchProtectionOptOut .. => True
  | _ => False

/-- No pull request is stored under the number its repository hands out next. -/
def State.Ordered (s : State) : Prop :=
  ∀ owner repo, s.pulls.lookup (owner, repo, (s.nextRecordNumber owner repo).1) = none

def Call.footprint (call : Call) (s : State) (floor ceiling : Nat) : Footprint where
  touches slug := call.touches s slug
  creates slug := call.Opens ∧ call.touches s slug
  shifts := call.Shifts
  drawn id := floor ≤ id ∧ id < ceiling
  updates pr request := call.updates s pr request
  protects rule := call.protects rule
  journals := call.Journals
  drops := call.Drops
  dismisses := call.Dismisses
  ordered := s.Ordered
  deploys := call.Deploys
  rules := call.Rules

/-- A snapshot that becomes durable is a state the section moves to, whatever it answers. -/
def Written.Follows (print : Footprint) (s : State) : Written → Prop
  | .receipt _ => True
  | .snapshot next _ => next.stageState = .ok () ∧ Moves print s next
  | .rows append => print.deploys ∧ ∀ tables, ∃ deployments, append tables = { tables with deployments }

/-- The receipt that may go into the transaction of a snapshot. -/
def Call.Accompanies (core : ForgeCore) (next : State) (entry : AuditEntry) : Call → Prop
  | .retargetPullRequest .. => entry.action = "pull_request.retargeted"
  | .finalizeMergeWithOverride _ permit mergeSha =>
    entry = permit.completedReceipt mergeSha core.now ∧ ∃ pr,
      core.state.pulls.lookup (permit.owner, permit.repo, permit.number) = some pr ∧
      pr.merged = false ∧
      next.pulls.lookup (permit.owner, permit.repo, permit.number) =
        some (mergedPull pr mergeSha core.now)
  | _ => False

/-- What a section of the call may make durable: receipts of its own, and snapshots. -/
def Call.Tells (call : Call) (core : ForgeCore) : Written → Prop
  | .receipt entry => call.Audited entry.action entry.phase
  | .snapshot _ none | .rows _ => True
  | .snapshot next (some entry) => call.Accompanies core next entry

/-- What one section of a call does to the core. -/
structure Effect (call : Call) (core core' : ForgeCore) : Prop where
  uuids : core.uuids ≤ core'.uuids
  storage : core'.storage.isSome = core.storage.isSome
  moves : Moves (call.footprint core.state core.uuids core'.uuids) core.state core'.state
  /-- A store takes only states it can stage; the deployments are not in the snapshot. -/
  staged : core.storage.isSome = true → core'.state.stageState = .ok () ∨
    ∃ deployments, core'.state = { core.state with deployments }
  written : ∃ writes, core'.journal = core.journal ++ writes ∧ ∀ write ∈ writes,
    write.Follows (call.footprint core.state core.uuids core'.uuids) core.state ∧
    call.Tells core write

section Outcomes

variable {call : Call} {core : ForgeCore}

theorem Effect.same {core' : ForgeCore} (state : core'.state = core.state)
    (uuids : core.uuids ≤ core'.uuids) (storage : core'.storage.isSome = core.storage.isSome)
    (written : ∃ writes, core'.journal = core.journal ++ writes ∧ ∀ write ∈ writes,
      write.Follows (call.footprint core.state core.uuids core'.uuids) core.state ∧
      call.Tells core write) :
    Effect call core core' where
  uuids
  storage
  moves := state ▸ .touches .refl
  staged _ := .inr ⟨core.state.deployments, state⟩
  written

theorem Effect.unchanged : Effect call core core :=
  .same rfl (Nat.le_refl _) rfl ⟨[], (List.append_nil _).symm, fun _ member => nomatch member⟩

theorem ForgeCore.logged_storage (core : ForgeCore) (entries : List AuditEntry) :
    (core.logged entries).storage.isSome = core.storage.isSome := by
  simp [ForgeCore.logged]

theorem ForgeCore.mem_recorded {core : ForgeCore} {writes : List Written} {write : Written}
    (member : write ∈ core.recorded writes) : write ∈ writes := by
  unfold ForgeCore.recorded at member
  split at member
  · exact member
  · cases member

theorem ForgeCore.logged_journal (core : ForgeCore) (entries : List AuditEntry) :
    (core.logged entries).journal = core.journal ++ core.recorded (entries.map .receipt) := by
  unfold ForgeCore.journal ForgeCore.recorded ForgeCore.logged
  cases core.storage <;> simp

theorem ForgeCore.appended_journal (core : ForgeCore) (rows : State → State) :
    (core.appended rows).journal = core.journal ++ core.recorded [.rows rows] := by
  unfold ForgeCore.journal ForgeCore.recorded ForgeCore.appended
  cases core.storage <;> simp

theorem ForgeCore.saved_journal (core : ForgeCore) (next : State) (receipt : Option AuditEntry) :
    (core.saved next receipt).journal =
      core.journal ++ if core.commits next then [.snapshot next receipt] else [] := by
  unfold ForgeCore.journal ForgeCore.saved
  by_cases committed : core.commits next = true
  · rw [if_pos committed]
    simp only [committed, if_true]
    cases stored : core.storage with
    | none => simp [ForgeCore.commits, stored] at committed
    | some store => rfl
  · rw [if_neg committed]
    simp only [committed]
    cases core.storage <;> simp

theorem ForgeCore.commits_staged {core : ForgeCore} {next : State}
    (committed : core.commits next = true) : next.stageState = .ok () := by
  unfold ForgeCore.commits at committed
  rw [Option.any_eq_true] at committed
  obtain ⟨store, -, both⟩ := committed
  rw [Bool.and_eq_true] at both
  cases staged : next.stageState with
  | ok value => rfl
  | error error =>
    rw [staged] at both
    cases both.1

theorem ForgeCore.persist_commits {core : ForgeCore} {next : State} {receipt : Option AuditEntry}
    (persisted : core.persist next receipt = .ok ()) (attached : core.storage.isSome = true) :
    core.commits next = true := by
  obtain ⟨store, stored⟩ := Option.isSome_iff_exists.mp attached
  simp only [ForgeCore.persist, stored] at persisted
  simp only [ForgeCore.commits, stored, Option.any_some]
  split at persisted
  · cases persisted
  · next staged =>
    split at persisted
    · cases persisted
    · next committed =>
      rw [staged, committed]
      rfl

theorem ForgeCore.persist_staged {core : ForgeCore} {next : State} {receipt : Option AuditEntry}
    (persisted : core.persist next receipt = .ok ()) (attached : core.storage.isSome = true) :
    next.stageState = .ok () :=
  ForgeCore.commits_staged (ForgeCore.persist_commits persisted attached)

/-- What a section that ends so makes durable. -/
def Outcome.writes {α : Type} (core : ForgeCore) : Outcome α → List Written
  | refuse _ | unchanged _ => []
  | direct audits _ _ => core.recorded (audits.map .receipt)
  | append rows _ => core.recorded [.rows rows]
  | commit audits _ next receipt _ => core.recorded (audits.map .receipt) ++
      if core.commits next then [.snapshot next receipt] else []

theorem ForgeCore.commits_logged (core : ForgeCore) (audits : List AuditEntry) (draws : Nat)
    (next : State) : ({ core.logged audits with uuids := core.uuids + draws } : ForgeCore).commits next =
      core.commits next := by
  unfold ForgeCore.commits ForgeCore.logged
  cases core.storage <;> simp

theorem Outcome.leaves_journal {α : Type} (outcome : Outcome α) (core : ForgeCore) :
    (outcome.leaves core).journal = core.journal ++ outcome.writes core := by
  cases outcome with
  | refuse error => exact (List.append_nil _).symm
  | unchanged value => exact (List.append_nil _).symm
  | direct audits next value => exact core.logged_journal audits
  | append rows value => exact core.appended_journal rows
  | commit audits draws next receipt value =>
    have saved := ForgeCore.saved_journal { core.logged audits with uuids := core.uuids + draws } next
      receipt
    rw [core.commits_logged] at saved
    have logged : ({ core.logged audits with uuids := core.uuids + draws } : ForgeCore).journal =
        core.journal ++ core.recorded (audits.map .receipt) := core.logged_journal audits
    rw [logged, List.append_assoc] at saved
    simp only [Outcome.leaves, Outcome.settle, Outcome.writes]
    split
    · exact saved
    · exact saved

theorem Effect.logged {entry : AuditEntry} (audited : call.Audited entry.action entry.phase) :
    Effect call core (core.logged [entry]) :=
  .same rfl (Nat.le_refl _) (core.logged_storage _)
    ⟨_, core.logged_journal _, fun write member => by
      cases List.mem_singleton.mp (ForgeCore.mem_recorded member)
      exact ⟨True.intro, audited⟩⟩

/-- A section leaves the state as it is, or as it commits it. -/
theorem Outcome.leaves_state {α : Type} {outcome : Outcome α} {P : Nat → State → α → Prop}
    (commits : outcome.Commits P) : (outcome.leaves core).state = core.state ∨
      ∃ draws next value, P draws next value ∧ (outcome.leaves core).state = next ∧
        (outcome.leaves core).uuids = core.uuids + draws := by
  cases outcome with
  | refuse error => exact .inl rfl
  | unchanged value => exact .inl rfl
  | direct audits next value => exact commits.elim
  | append rows value => exact commits.elim
  | commit audits draws next receipt value =>
    simp only [Outcome.leaves, Outcome.settle]
    split
    · exact .inr ⟨draws, next, value, commits, rfl, rfl⟩
    · exact .inl rfl

/-- What is told besides the snapshot is told by the call. -/
def Outcome.Told {α : Type} (call : Call) (core : ForgeCore) : Outcome α → Prop
  | commit audits _ next receipt _ => (∀ entry ∈ audits, call.Audited entry.action entry.phase) ∧
      ∀ entry, receipt = some entry → call.Accompanies core next entry
  | _ => True

theorem Outcome.effect_told {α : Type} {outcome : Outcome α}
    (commits : outcome.Commits fun draws next _ =>
      Moves (call.footprint core.state core.uuids (core.uuids + draws)) core.state next)
    (told : outcome.Told call core) : Effect call core (outcome.leaves core) := by
  cases outcome with
  | refuse error => exact .unchanged
  | unchanged value => exact .unchanged
  | direct audits next value => exact commits.elim
  | append rows value => exact commits.elim
  | commit audits draws next receipt value =>
    have follows : ∀ write ∈ (commit audits draws next receipt value).writes core,
        write.Follows (call.footprint core.state core.uuids (core.uuids + draws)) core.state ∧
          call.Tells core write := by
      intro write member
      rcases List.mem_append.mp member with audit | snapshot
      · obtain ⟨entry, carried, rfl⟩ := List.mem_map.mp (ForgeCore.mem_recorded audit)
        exact ⟨True.intro, told.1 entry carried⟩
      · split at snapshot
        · next committed =>
          have staged := ForgeCore.commits_staged committed
          cases List.mem_singleton.mp snapshot
          cases receipt with
          | none => exact ⟨⟨staged, commits⟩, True.intro⟩
          | some entry => exact ⟨⟨staged, commits⟩, told.2 entry rfl⟩
        · cases snapshot
    have journal := (commit audits draws next receipt value).leaves_journal core
    simp only [Outcome.leaves, Outcome.settle] at journal ⊢
    split
    · next persisted =>
      have staged := ForgeCore.persist_staged persisted
      simp only [ForgeCore.logged_storage] at staged
      simp only [persisted] at journal
      exact
        { uuids := Nat.le_add_right _ _
          storage := by simp [ForgeCore.saved, ForgeCore.logged]
          moves := commits
          staged := fun attached => .inl (staged attached)
          written := ⟨_, journal, follows⟩ }
    · next refused =>
      simp only [refused] at journal
      exact .same rfl (Nat.le_add_right _ _) (by simp [ForgeCore.saved, ForgeCore.logged])
        ⟨_, journal, follows⟩

theorem Outcome.CommitsAlone.commits {α : Type} {outcome : Outcome α} {P : Nat → State → α → Prop}
    (alone : outcome.CommitsAlone P) : outcome.Commits P := by
  unfold CommitsAlone at alone
  split at alone
  · exact True.intro
  · exact True.intro
  · exact alone
  · exact alone.elim
  · exact alone.elim
  · exact alone.elim

theorem Outcome.CommitsAlone.told {α : Type} {outcome : Outcome α} {P : Nat → State → α → Prop}
    (alone : outcome.CommitsAlone P) : outcome.Told call core := by
  unfold CommitsAlone at alone
  split at alone
  · exact True.intro
  · exact True.intro
  · exact ⟨fun entry none => (nomatch none), fun entry none => (nomatch none)⟩
  · exact alone.elim
  · exact alone.elim
  · exact alone.elim

theorem Outcome.effect {α : Type} {outcome : Outcome α}
    (commits : outcome.CommitsAlone fun draws next _ =>
      Moves (call.footprint core.state core.uuids (core.uuids + draws)) core.state next) :
    Effect call core (outcome.leaves core) :=
  effect_told commits.commits commits.told

end Outcomes

section Named

variable {s : State}

theorem State.named_issue {key : Scoped Nat} {issue : Issue} (found : s.issues.lookup key = some issue) :
    (key.1, key.2.1) ∈ s.scopedSlugs := by
  have member : (key.1, key.2.1) ∈ s.issues.keys.map fun key => (key.1, key.2.1) :=
    List.mem_map_of_mem (mem_keys_of_lookup found)
  unfold State.scopedSlugs
  simp only [List.mem_append, member, true_or, or_true]

theorem State.named_pull {key : Scoped Nat} {pr : PullRequest} (found : s.pulls.lookup key = some pr) :
    (key.1, key.2.1) ∈ s.scopedSlugs := by
  have member : (key.1, key.2.1) ∈ s.pulls.keys.map fun key => (key.1, key.2.1) :=
    List.mem_map_of_mem (mem_keys_of_lookup found)
  unfold State.scopedSlugs
  simp only [List.mem_append, member, true_or, or_true]

theorem State.named_status {key : Scoped String} {rows : List CommitStatus}
    (found : s.statuses.lookup key = some rows) : (key.1, key.2.1) ∈ s.scopedSlugs := by
  have member : (key.1, key.2.1) ∈ s.statuses.keys.map fun key => (key.1, key.2.1) :=
    List.mem_map_of_mem (mem_keys_of_lookup found)
  unfold State.scopedSlugs
  simp only [List.mem_append, member, true_or, or_true]

theorem State.named_checkRun {slug : Slug} {rows : List CheckRun}
    (found : s.checkRuns.lookup slug = some rows) : slug ∈ s.scopedSlugs := by
  have member : slug ∈ s.checkRuns.keys := mem_keys_of_lookup found
  unfold State.scopedSlugs
  simp only [List.mem_append, member, true_or, or_true]

end Named

section Parts

variable {print : Footprint} {s s' : State} {owner repo : String}

theorem touch_emit (named : (owner, repo) ∈ s.scopedSlugs) (event : String) (payload : EventPayload)
    (now : DateTime) : Touch print s (s.emitEventLocked owner repo event payload now) := by
  refine .emitted (owner, repo) _ named fun delivery member => ?_
  obtain ⟨hook, -, rfl⟩ := List.mem_map.mp member
  rfl

theorem touches_reevaluate {key : Scoped Nat} (within : print.touches (key.1, key.2.1)) (m : Bool) :
    Touches print s (s.reevaluate m key) := by
  unfold State.reevaluate
  split
  · next found => exact .single (.pullEdited found within (.refl _) _)
  · exact .refl

theorem touches_foldl {α : Type} {f : State → α → State} {items : List α}
    (each : ∀ s, ∀ item ∈ items, Touches print s (f s item)) : Touches print s (items.foldl f s) := by
  induction items generalizing s with
  | nil => exact .refl
  | cons item rest ih =>
    exact (each s item (by simp)).trans
      (ih fun s' other member => each s' other (List.mem_cons_of_mem _ member))

theorem touches_refresh (within : print.touches (owner, repo)) (m : Bool) (sha : String) :
    Touches print s (s.refreshPullMergeabilityForSha m owner repo sha) := by
  refine touches_foldl fun s' key member => touches_reevaluate ?_ m
  obtain ⟨⟨key, pr⟩, found, rfl⟩ := List.mem_map.mp member
  have matched := (List.mem_filter.mp found).2
  simp only [Bool.and_eq_true, beq_iff_eq] at matched
  rw [matched.1.1, matched.1.2]
  exact within

theorem refresh_frame (m : Bool) (sha : String) :
    s.refreshPullMergeabilityForSha m owner repo sha =
      { s with pulls := (s.refreshPullMergeabilityForSha m owner repo sha).pulls } := by
  unfold State.refreshPullMergeabilityForSha
  generalize (s.pulls.pairs.filter _).map Prod.fst = keys
  induction keys generalizing s with
  | nil => rfl
  | cons key rest ih =>
    have one : s.reevaluate m key = { s with pulls := (s.reevaluate m key).pulls } := by
      unfold State.reevaluate
      split <;> rfl
    rw [List.foldl_cons, ih, one]

/-- The edited pull request stored and announced. -/
theorem touches_storeEdited {core : ForgeCore} {key : Scoped Nat} {pr edited : PullRequest}
    (found : core.state.pulls.lookup key = some pr) (within : print.touches (key.1, key.2.1))
    (follows : edited.Follows pr) (action : String) :
    Touches print core.state (storeEdited core key action edited).2 := by
  refine .tail (.single (.pullEdited found within follows _)) (touch_emit ?_ ..)
  exact State.named_pull (lookup_insert_self core.state.pulls key _)

end Parts

end Jeryu.Core
