import Jeryu.Core.MergeSafety

/-!
The merge override. What the permit was prepared for is checked again, under the lock, by
the section that records the merge; and a permit is spent by one call, in one section.
-/

namespace Jeryu.Core

open KeyedMap HashMap Relation LockProgram Method Text

/-- A failing check the rule lets an administrator set aside. -/
structure State.Waivable (state : State) (pr : PullRequest) (actor : String)
    (protection : BranchProtectionRule) (context : String) (status : CommitStatus) : Prop where
  named : context ∈ protection.mergeOverrideStatusChecks
  current : state.currentStatus pr context = some status
  failing : status.state = .failure ∨ status.state = .error
  creator : status.creator ∈ protection.mergeOverrideStatusCreators
  independent : eqIgnoreAsciiCase status.creator actor = false
  finished : state.checkRunning pr context = false

/-- What an override merge finds in the state it writes from. -/
structure ForgeCore.Overridable (core : ForgeCore) (pr : PullRequest)
    (permit : MergeOverridePermit) : Prop where
  admin : core.state.isHumanRepoAdmin permit.actor pr.owner pr.repo = true
  rule : core.state.branchProtections.lookup (pr.owner, pr.repo, pr.base.refName) =
    some permit.protection
  allowed : permit.protection.allowMergeOverride = true
  optional : permit.protection.enforceAdmins = false
  head : pr.head.sha = permit.headSha
  base : pr.base.sha = permit.baseSha
  blockers : ∀ blocker ∈ (core.state.evaluateLocked core.auditMergeEnforced pr
      (some permit.headSha)).blockers,
    ∃ context status, blocker = .failedStatusCheck context ∧
      core.state.Waivable pr permit.actor permit.protection context status
  approvals : permit.protection.requiredApprovingReviewCount ≤
    (core.state.independentApprovals pr permit.protection permit.actor).length

section Validators

variable {state : State} {pr : PullRequest} {actor : String} {protection : BranchProtectionRule}

theorem validateOverride_ok (valid : validateOverride state pr actor = .ok ()) :
    state.isHumanRepoAdmin actor pr.owner pr.repo = true ∧ actor ≠ pr.author ∧
      ∃ protection, state.branchProtections.lookup (pr.owner, pr.repo, pr.base.refName) =
        some protection ∧ protection.allowMergeOverride = true ∧ protection.enforceAdmins = false ∧
        protection.requiredApprovingReviewCount ≤
          (state.independentApprovals pr protection actor).length := by
  unfold validateOverride at valid
  obtain ⟨admin, valid⟩ := ite_error_eq_ok.mp valid
  split at valid
  · cases valid
  · next protection found =>
    obtain ⟨stored, allowed⟩ := Option.filter_eq_some_iff.mp found
    simp only [ite_error_eq_ok] at valid
    obtain ⟨optional, author, approvals, -⟩ := valid
    refine ⟨by simpa using admin, author, protection, stored, by simpa using allowed,
      by simpa using optional, ?_⟩
    simp only [Bool.and_eq_true, decide_eq_true_eq, not_and, Nat.not_lt] at approvals
    omega

theorem overrideEvidence_ok {blocker : MergeBlocker} {status : CommitStatus}
    (evidence : overrideEvidence state pr actor protection blocker = .ok status) :
    ∃ context, blocker = .failedStatusCheck context ∧
      state.Waivable pr actor protection context status := by
  unfold overrideEvidence at evidence
  split at evidence
  · next context =>
    split at evidence
    · next current found =>
      split at evidence
      · next waived =>
        obtain ⟨independent, same⟩ := ite_error_eq_ok.mp evidence
        cases same
        simp only [Bool.and_eq_true, Bool.or_eq_true, decide_eq_true_eq, Bool.not_eq_true',
          List.contains_iff_mem] at waived
        obtain ⟨⟨⟨named, finished⟩, creator⟩, failing⟩ := waived
        exact ⟨context, rfl, named, found, failing, creator, by simpa using independent, finished⟩
      · cases evidence
    · cases evidence
  · cases evidence

theorem collectEvidence_ok {blockers : List MergeBlocker} {evidence : List CommitStatus}
    (collected : collectEvidence state pr actor protection blockers = .ok evidence) :
    ∀ blocker ∈ blockers, ∃ context status, blocker = .failedStatusCheck context ∧
      state.Waivable pr actor protection context status := by
  induction blockers generalizing evidence with
  | nil => exact fun _ member => nomatch member
  | cons first rest ih =>
    unfold collectEvidence at collected
    split at collected
    · cases collected
    · next status waived =>
      split at collected
      · cases collected
      · next others done_ =>
        intro blocker member
        rcases List.mem_cons.mp member with rfl | member
        · obtain ⟨context, same, waivable⟩ := overrideEvidence_ok waived
          exact ⟨context, status, same, waivable⟩
        · exact ih done_ blocker member

theorem Finalizable.overridable {core : ForgeCore} {permit : MergeOverridePermit} {mergeSha : String}
    (finalizable : Finalizable core permit.owner permit.repo pr (permit.binding mergeSha) (some permit))
    (owner : pr.owner = permit.owner) (repo : pr.repo = permit.repo) :
    core.Overridable pr permit ∧ permit.actor ≠ pr.author := by
  have passed := finalizable.passed
  unfold finalizeGate at passed
  dsimp only at passed
  split at passed
  · cases passed
  · next valid =>
    obtain ⟨unexpired, passed⟩ := ite_error_eq_ok.mp passed
    split at passed
    · cases passed
    · next evidence collected =>
      simp only [ite_error_eq_ok, not_or, not_not] at passed
      obtain ⟨-, ⟨head, base, -, rule⟩, -⟩ := passed
      obtain ⟨admin, author, protection, stored, allowed, optional, approvals⟩ :=
        validateOverride_ok valid
      rw [owner, repo, rule] at stored
      cases stored
      exact ⟨⟨admin, by rw [owner, repo, rule], allowed, optional, head, base,
        collectEvidence_ok collected, approvals⟩, author⟩

end Validators

section Spending

/-- A section that appends a receipt at most. -/
def Quiet (core core' : ForgeCore) : Prop := core'.state = core.state

theorem appendAuditAs_quiet (actor action subject : String) (phase : AuditPhase) :
    (appendAuditAs actor action subject phase).Writes fun core core' _ => Quiet core core' := by
  refine writes_locked fun core => ?_
  split <;> rfl

/-- One section of an override finalize may write the state; the others write receipts. -/
theorem finalizeMergeWithOverride_once (permit : MergeOverridePermit) (mergeSha : String) :
    (Core.finalizeMergeWithOverride permit mergeSha).run.AtMostOnce (fun _ => True) Quiet
      fun _ _ => True := by
  refine Program.AtMostOnce.bind_quiet ?_ fun result => ?_
  · have checks : (ensureRepositoryWritable permit.owner permit.repo).Writes fun core core' _ =>
        Quiet core core' :=
      (ensureRepositoryWritable_readOnly permit.owner permit.repo).writes
    refine Program.AtMostOnce.quiet_bind checks.meets fun checked _ => ?_
    cases checked with
    | error failure => exact True.intro
    | ok _ => exact fun core _ => .inr ⟨True.intro, True.intro⟩
  · cases result with
    | ok merged => exact True.intro
    | error failure =>
      have receipt := appendAuditAs_quiet permit.actor "pull.merge_override" permit.subject .failed
      refine Program.Meets.bind ((receipt.orIgnored receipt).meets.mono (fun _ h => h)
        (fun _ _ _ _ quiet _ => quiet) fun _ h => h) fun closed _ => ?_
      cases closed <;> exact True.intro

/-- The permit a call spends, by the prepare that answered it. -/
def Call.ticket : Call → Option Nat
  | .finalizeMergeWithOverride ticket _ _ => some ticket
  | _ => none

/-- No two calls spend one permit. -/
def Pool.Ticketed (pool : Pool) : Prop :=
  (pool.tasks.map Task.call).Pairwise fun call call' =>
    ∀ ticket, call.ticket = some ticket → call'.ticket ≠ some ticket

variable {condition : Call → ForgeCore → Prop} {pool pool' last last' : Pool}

theorem Pool.Ticketed.step (ticketed : pool.Ticketed) (step : Step forge (Guarded condition) pool pool') :
    pool'.Ticketed := by
  unfold Pool.Ticketed
  rcases step.calls with same | ⟨call, admitted, added⟩
  · rw [same]
    exact ticketed
  · rw [added, List.pairwise_append]
    refine ⟨ticketed, List.pairwise_singleton .., fun first member second last ticket spent again => ?_⟩
    obtain ⟨task, stored, rfl⟩ := List.mem_map.mp member
    cases List.mem_singleton.mp last
    cases call with
    | finalizeMergeWithOverride ticket' permit mergeSha =>
      cases again
      have unspent := admitted.2 task stored
      cases shape : task.call with
      | finalizeMergeWithOverride other permit' mergeSha' =>
        rw [shape] at spent
        cases spent
        exact unspent _ _ shape
      | _ => simp [shape, Call.ticket] at spent
    | _ => cases again

theorem Pool.ReachableWhen.ticketed (reachable : pool.ReachableWhen condition) : pool.Ticketed := by
  obtain ⟨start, ⟨-, idle⟩, run⟩ := reachable
  induction run with
  | refl =>
    unfold Pool.Ticketed
    rw [idle]
    exact .nil
  | tail _ step ih => exact ih.step step

/-- A permit belongs to one task. -/
theorem Pool.Ticketed.same (ticketed : pool.Ticketed) {i j ticket : Nat}
    {task task' : Task ForgeCore Call.Reply} (first : pool.tasks[i]? = some task)
    (second : pool.tasks[j]? = some task') (spent : task.call.ticket = some ticket)
    (again : task'.call.ticket = some ticket) : i = j := by
  obtain ⟨bound, rfl⟩ := List.getElem?_eq_some_iff.mp first
  obtain ⟨bound', rfl⟩ := List.getElem?_eq_some_iff.mp second
  have apart := List.pairwise_iff_getElem.mp ticketed
  simp only [List.length_map, List.getElem_map] at apart
  rcases Nat.lt_trichotomy i j with before | same | after
  · exact absurd again (apart i j bound bound' before ticket spent)
  · exact same
  · exact absurd spent (apart j i bound' bound after ticket again)

theorem Quiet.not_merges {core core' : ForgeCore} {id : Uuid} (quiet : Quiet core core')
    (coherent : core.Coherent) : ¬Merges core core' id := by
  rintro ⟨key, key', pr, pr', found, same, unmerged, found', same', merged⟩
  rw [quiet] at found'
  obtain rfl := coherent.identified.pulls key key' pr pr' id found found' same same'
  cases found.symm.trans found'
  rw [unmerged] at merged
  cases merged

/-- What is left of a call that spends a permit writes the state at most once. -/
def SpendsOnce (call : Call) (rest : Program ForgeCore call.Reply) : Prop :=
  call.ticket.isSome = true → rest.AtMostOnce (fun _ => True) Quiet fun _ _ => True

theorem Pool.ReachableWhen.tasks_once (reachable : pool.ReachableWhen condition) {i ticket : Nat}
    {permit : MergeOverridePermit} {mergeSha : String}
    {rest : Program ForgeCore (Call.Reply (.finalizeMergeWithOverride ticket permit mergeSha))}
    (running : pool.tasks[i]? = some ⟨.finalizeMergeWithOverride ticket permit mergeSha, rest⟩) :
    rest.AtMostOnce (fun _ => True) Quiet fun _ _ => True := by
  obtain ⟨start, ⟨-, idle⟩, run⟩ := reachable
  refine run.tasks (P := SpendsOnce) (fun call spends => ?_)
    (fun call next once s spends => once spends s True.intro) (fun call update next s once spends => ?_)
    (by simp [idle]) _ (List.mem_of_getElem? running) rfl
  · cases call with
    | finalizeMergeWithOverride ticket permit mergeSha =>
      exact finalizeMergeWithOverride_once permit mergeSha
    | _ => cases spends
  · rcases once spends s True.intro with ⟨-, after⟩ | ⟨-, after⟩
    · exact after
    · exact after.atMostOnce

/-- A permit that merged once is spent. -/
theorem Merges.spent {i j ticket : Nat} {permit permit' : MergeOverridePermit}
    {mergeSha mergeSha' : String} {reply reply'} {id id' : Uuid}
    (reachable : pool.ReachableWhen condition)
    (writes : pool.Writes i (.finalizeMergeWithOverride ticket permit mergeSha) reply pool')
    (merges : Merges pool.shared pool'.shared id) (step : Step forge (Guarded condition) pool pool')
    (run : Run forge (Guarded condition) pool' last)
    (again : last.Writes j (.finalizeMergeWithOverride ticket permit' mergeSha') reply' last') :
    ¬Merges last.shared last'.shared id' := by
  have later : last.ReachableWhen condition := reachable.run (.head step run)
  obtain ⟨update, next, running, rfl, -⟩ := writes
  have spent : (next pool.shared).Meets (fun _ => True) (fun core core' _ => Quiet core core')
      (fun _ => True) := by
    rcases reachable.tasks_once running pool.shared True.intro with ⟨quiet, -⟩ | ⟨-, after⟩
    · exact absurd merges (quiet.not_merges reachable.coherent)
    · exact after
  have bound := (List.getElem?_eq_some_iff.mp running).1
  obtain ⟨rest, kept, quiet⟩ := task_persists run ⟨_, List.getElem?_set_self bound, spent⟩
  obtain ⟨update', next', running', rfl, -⟩ := again
  obtain rfl := later.ticketed.same kept running' rfl rfl
  cases kept.symm.trans running'
  have still : Quiet last.shared (update' last.shared) := (quiet last.shared True.intro).1
  exact still.not_merges later.coherent

end Spending

/-- What a merge override may rely on, and what it can clear. -/
structure OverrideSafe (pool : Pool) : Prop where
  /-- The section that records an override merge finds all the permit stands for. -/
  records : ∀ i ticket permit mergeSha reply pool' pr pr',
    pool.Writes i (.finalizeMergeWithOverride ticket permit mergeSha) reply pool' →
    pool.shared.state.pulls.lookup (permit.owner, permit.repo, permit.number) = some pr →
    pr.merged = false →
    pool'.shared.state.pulls.lookup (permit.owner, permit.repo, permit.number) = some pr' →
    pr'.merged = true → pool.shared.Overridable pr permit
  /-- One permit never records two merges. -/
  once : ∀ i j ticket permit permit' mergeSha mergeSha' reply reply' pool' last last' id id',
    pool.Writes i (.finalizeMergeWithOverride ticket permit mergeSha) reply pool' →
    Merges pool.shared pool'.shared id → Run forge (Guarded anyCall) pool' last →
    last.Writes j (.finalizeMergeWithOverride ticket permit' mergeSha') reply' last' →
    ¬Merges last.shared last'.shared id'

theorem finalizeMergeWithOverride_records {core core' : ForgeCore} {ticket : Nat}
    {permit : MergeOverridePermit} {mergeSha : String} {reply} {pr pr' : PullRequest}
    (coherent : core.Coherent)
    (sect : Section (.finalizeMergeWithOverride ticket permit mergeSha) core core' reply)
    (found : core.state.pulls.lookup (permit.owner, permit.repo, permit.number) = some pr)
    (unmerged : pr.merged = false)
    (found' : core'.state.pulls.lookup (permit.owner, permit.repo, permit.number) = some pr')
    (merged : pr'.merged = true) : core.Overridable pr permit ∧ permit.actor ≠ pr.author := by
  have moved (same : core'.state.pulls = core.state.pulls) : False := by
    rw [same, found] at found'
    cases found'
    rw [unmerged] at merged
    cases merged
  cases sect with
  | audit entry audited => exact (moved rfl).elim
  | refused audited => exact (moved rfl).elim
  | profile profiled => cases profiled
  | finalizeMergeWithOverride =>
    have own := (coherent.keyed.pulls _ _ found).1
    simp only [PullRequest.key, Prod.mk.injEq] at own
    exact (finalizeLocked_records rfl found unmerged found' merged).1.overridable own.1 own.2.1

theorem override_merge_safe {pool : Pool} (reachable : pool.Reachable) : OverrideSafe pool where
  records _ _ _ _ _ _ _ _ writes found unmerged found' merged :=
    (finalizeMergeWithOverride_records reachable.coherent (reachable.writes writes) found unmerged
      found' merged).1
  once _ _ _ _ _ _ _ _ _ _ _ _ _ _ writes merges run again :=
    Merges.spent reachable writes merges (writes.step fun _ => .any) run again

section Demo

def overrideRule : SetBranchProtectionRequest :=
  { SetBranchProtectionRequest.default with
    requiredStatusChecks := ["ci"], allowMergeOverride := true
    mergeOverrideStatusChecks := ["ci"], mergeOverrideStatusCreators := ["ci-bot"] }

def overrideRequest : MergeOverrideRequest where
  actor := "root"
  reason := "flaky runner"
  expectedHeadSha := Call.demoHead
  assertedPassportHash :=
    "passport:0000000000000000000000000000000000000000000000000000000000000000"

/-- A pull request of `author` with a failing check, and an override prepared for it. -/
def overridePrepared (author : String) : List (Turn Call) :=
  [.alone (.createAccount "root" "correct horse battery" .admin (.ok "hash")), .alone .newDemo,
    .alone (.setBranchProtection "acme" "demo" "main" overrideRule), .alone (.newPull author),
    .alone (.createCommitStatus "acme" "demo" Call.demoHead "ci-bot"
      { state := .failure, context := "ci", base := some "main", description := none
        targetUrl := none }),
    .alone (.prepareMergeOverride "acme" "demo" 1 overrideRequest)]

def failingStatus : CommitStatus where
  id := 6
  owner := "acme"
  repo := "demo"
  sha := Call.demoHead
  state := .failure
  context := "ci"
  base := some "main"
  description := none
  targetUrl := none
  creator := "ci-bot"
  createdAt := 0
  updatedAt := 0

/-- What the prepare answers. -/
def overrideTarget : MergeOverrideTarget where
  baseRef := "main"
  baseSha := Call.demoBase
  headRef := "feature"
  headSha := Call.demoHead
  requireLinearHistory := false

def overridePermit : MergeOverridePermit where
  owner := "acme"
  repo := "demo"
  number := 1
  actor := "root"
  reason := "flaky runner"
  headSha := Call.demoHead
  baseSha := Call.demoBase
  passportHash := overrideRequest.assertedPassportHash
  expiresAt := 600
  statusEvidence := [failingStatus]
  evaluation := .fromBlockers [.failedStatusCheck "ci"]
  protection := overrideRule.rule "acme" "demo" "main" 0

/-- The finalize that waits for the write lock. -/
def overrideAtLock (author : String) : List (Turn Call) :=
  overridePrepared author ++
    [.enter (.finalizeMergeWithOverride 5 overridePermit "merge-1"), .advance 6]

def overrideOutcome (author : String) : Pool :=
  (ForgeCore.durable.played (overrideAtLock author)).turn forge (.advance 6)

/-- The pull request is unmerged before the finalize section, and merged after it. -/
def overrideMerges (author : String) : Bool :=
  ((ForgeCore.durable.played (overrideAtLock author)).shared.state.pulls.lookup
    ("acme", "demo", 1)).any (fun pr => !pr.merged) &&
  ((overrideOutcome author).shared.state.pulls.lookup ("acme", "demo", 1)).any PullRequest.merged

theorem overrideAtLock_reachable {author : String}
    (prepared : (ForgeCore.durable.played (overridePrepared author)).tasks[5]? =
      some ⟨.prepareMergeOverride "acme" "demo" 1 overrideRequest,
        .done (.ok (overrideTarget, overridePermit))⟩) :
    (ForgeCore.durable.played (overrideAtLock author)).Reachable := by
  refine played_reachable rfl (plays_append.mpr ⟨plays_of_plain (by rfl) fun _ _ => True.intro,
    ⟨⟨_, _, _, _, _, prepared⟩, fun task member permit' mergeSha' => ?_⟩,
    fun _ _ _ _ => .any, True.intro⟩)
  simp only [Config.play, overridePrepared, List.foldl, Config.turn, List.nil_append,
    List.cons_append, List.mem_cons, List.not_mem_nil, or_false] at member
  rcases member with rfl | rfl | rfl | rfl | rfl | rfl <;> simp [Call.newDemo, Call.newPull]

theorem override_writes {author : String} {rest}
    (running : (ForgeCore.durable.played (overrideAtLock author)).tasks[6]? =
      some ⟨.finalizeMergeWithOverride 5 overridePermit "merge-1", rest⟩) (locks : rest.locks = true) :
    ∃ reply, (ForgeCore.durable.played (overrideAtLock author)).Writes 6
      (.finalizeMergeWithOverride 5 overridePermit "merge-1") reply (overrideOutcome author) :=
  Config.turn_writes running locks

theorem override_merge_demo : ∃ pr,
    (ForgeCore.durable.played (overrideAtLock "alice")).shared.Overridable pr overridePermit := by
  have safe : OverrideSafe (ForgeCore.durable.played (overrideAtLock "alice")) :=
    override_merge_safe (overrideAtLock_reachable (by rfl))
  obtain ⟨reply, writes⟩ := @override_writes "alice" _ rfl (by decide +kernel)
  have merges : overrideMerges "alice" = true := by decide +kernel
  simp only [overrideMerges, Bool.and_eq_true, Option.any_eq_true, Bool.not_eq_true'] at merges
  obtain ⟨⟨pr, found, unmerged⟩, pr', found', merged⟩ := merges
  exact ⟨pr, safe.records 6 5 _ _ _ _ pr pr' writes found unmerged found' merged⟩

end Demo

end Jeryu.Core
