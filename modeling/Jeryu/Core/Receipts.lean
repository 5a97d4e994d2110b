import Jeryu.Core.Onward
import Jeryu.Core.DismissalSafety
import Jeryu.Library.Journal

/-!
Receipts of the two privileged acts, an administrator's dismissal of another reviewer's verdict and
a merge override, in the journal of a store on disk.
-/

namespace Jeryu.Core

open KeyedMap HashMap LockProgram Relation Journal

/-- The receipt says that a dismissal has gone through. -/
def AuditEntry.ClosesDismissal (entry : AuditEntry) : Prop :=
  entry.action = dismissalAuditAction ∧ entry.phase = .completed

/-- The receipt says that an override has gone through. -/
def AuditEntry.ClosesOverride (entry : AuditEntry) : Prop :=
  entry.action = mergeOverrideAction ∧ entry.phase = .completed

/-- A receipt of neither. -/
def AuditEntry.Ordinary (entry : AuditEntry) : Prop :=
  ¬entry.ClosesDismissal ∧ ¬entry.ClosesOverride

/-- The receipt asks for the dismissal that the row records: its identifier, the review it dismisses
    and the head are in the detail. -/
def AuditEntry.Requests (entry : AuditEntry) (row : Review) : Prop :=
  entry.action = dismissalAuditAction ∧ entry.phase = .requested ∧ entry.detail = row.auditDetail

/-- Every dismissal by an administrator was asked for by a receipt of the journal. -/
def State.Requested (s : State) (journal : List Written) : Prop :=
  s.reviews.Every fun _ rows => ∀ row ∈ rows, row.dismissalAuthority.isSome = true →
    ∃ entry, Written.receipt entry ∈ journal ∧ entry.Requests row

/-- The snapshot has the dismissal that `detail` tells of, in the repository. -/
def Written.Dismisses (detail : AuditDetail) (repository : Uuid) : Written → Prop
  | .snapshot next _ => ∃ slug repo, next.repos.lookup slug = some repo ∧ repo.id = repository ∧
      next.DismissedAt detail slug
  | _ => False

/-- The snapshot of an override in which the pull request is merged. -/
def Written.Overrides (id : Uuid) : Written → Prop
  | .snapshot next (some entry) => entry.ClosesOverride ∧
      ∃ key pr, next.pulls.lookup key = some pr ∧ pr.id = id ∧ pr.merged = true
  | _ => False

/-- A receipt that closes a dismissal comes after the snapshot with the row, which is there as long
    as its repository is. -/
def AuditDetail.Dismissed (detail : AuditDetail) (core : ForgeCore) (before : List Written) : Prop :=
  ∃ repository, (∃ write ∈ before, write.Dismisses detail repository) ∧
    repository < core.uuids ∧ core.Keeps repository fun s => s.DismissedAt detail

/-- A receipt that closes an override is in the transaction of the merge it names, the first with
    the pull request merged, and the merge is there as long as its repository is. -/
def AuditEntry.Overridden (entry : AuditEntry) (core : ForgeCore) (before : List Written)
    (next : State) : Prop :=
  ∃ permit mergeSha now pr repo, entry = MergeOverridePermit.completedReceipt permit mergeSha now ∧
    next.pulls.lookup (permit.owner, permit.repo, permit.number) = some pr ∧ pr.merged = true ∧
    pr.mergeCommitSha = some mergeSha ∧ (∀ write ∈ before, ¬write.Overrides pr.id) ∧
    next.repos.lookup (permit.owner, permit.repo) = some repo ∧ repo.id < core.uuids ∧
    core.Keeps repo.id fun s => s.MergedAt pr.id mergeSha

/-- What a durable write has before it. -/
def Written.Backed (core : ForgeCore) (before : List Written) : Written → Prop
  | .receipt entry => ¬entry.ClosesOverride ∧ (entry.ClosesDismissal → entry.detail.Dismissed core before)
  | .snapshot next carried => next.Requested before ∧ ∀ entry, carried = some entry →
      ¬entry.ClosesDismissal ∧ (entry.ClosesOverride → entry.Overridden core before next)
  | .rows append => (rows append).Appends

/-- The journal of the store and the memory it goes with. -/
structure ForgeCore.Receipted (core : ForgeCore) : Prop where
  backed : Justified (Written.Backed core) core.journal
  requested : core.state.Requested core.journal
  settled : ∀ write ∈ core.journal, ∀ id, write.Overrides id → id < core.uuids ∧ core.Settled id

/-- `append_audit_as` takes any action and any phase; no caller of it says that one of the two acts
    has gone through. -/
def Call.Forges : Call → Prop
  | .appendAuditAs _ action _ phase _ =>
    phase = .completed ∧ (action = dismissalAuditAction ∨ action = mergeOverrideAction)
  | _ => False

def Unforged (call : Call) (_ : ForgeCore → ForgeCore) (_ : ForgeCore) : Prop := ¬call.Forges

section Requested

variable {print : Footprint} {s s' : State} {journal more : List Written}

theorem State.Requested.mono (requested : s.Requested journal) (prior : journal ⊆ more) :
    s.Requested more := by
  intro key rows found row member granted
  obtain ⟨entry, stored, asks⟩ := requested key rows found row member granted
  exact ⟨entry, prior stored, asks⟩

theorem requested_empty (journal : List Written) : State.empty.Requested journal := every_empty

/-- A row pushed with its receipt, or with no authority. -/
theorem State.Requested.push (requested : s.Requested journal) {key : Scoped Nat} {review : Review}
    (asked : review.dismissalAuthority.isSome = true →
      ∃ entry, Written.receipt entry ∈ journal ∧ entry.Requests review) :
    ({ s with reviews := s.reviews.push key review } : State).Requested journal := by
  refine Every.push requested fun rows old row member granted => ?_
  rcases List.mem_append.mp member with before | new
  · rcases old with found | rfl
    · exact requested _ _ found row before granted
    · cases before
  · cases List.mem_singleton.mp new
    exact asked granted

theorem Touch.requested (touch : Touch print s s') (kept : ¬print.dismisses)
    (requested : s.Requested journal) : s'.Requested journal := by
  cases touch with
  | defaultBranchSet =>
    rw [State.ensureDefaultBranchProtection_eq]
    exact requested
  | optOutSet =>
    rw [State.withOptOut_eq]
    exact requested
  | @issueOpened numbered issue may within next =>
    have counted : numbered = (s.nextRecordNumber issue.owner issue.repo).2 := by rw [next]
    subst counted
    exact requested
  | reviewed review found within drawn aimed fresh granted =>
    exact requested.push fun authorized => absurd (granted authorized) kept
  | _ => exact requested

theorem Moves.requested (moves : Moves print s s') (kept : ¬print.dismisses)
    (requested : s.Requested journal) : s'.Requested journal := by
  cases moves with
  | touches writes =>
    induction writes with
    | refl => exact requested
    | tail _ touch ih => exact touch.requested kept ih
  | shift may moved =>
    cases moved with
    | created =>
      rw [State.ensureDefaultBranchProtection_eq]
      exact requested
    | deleted found => exact Every.removeAll requested _
    | relocated found free now =>
      refine every_rekeyTriples (ne_of_lookup found free) requested fun _ rows asked row member => ?_
      obtain ⟨old, stored, rfl⟩ := List.mem_map.mp member
      exact asked old stored

end Requested

section Kept

variable {core core' : ForgeCore} {before journal writes : List Written} {write : Written}
variable {entry : AuditEntry} {detail : AuditDetail} {id : Uuid}

theorem AuditDetail.Dismissed.onward (dismissed : detail.Dismissed core before)
    (onward : core.Onward core') (prior : before ⊆ journal) : detail.Dismissed core' journal := by
  obtain ⟨repository, ⟨write, member, records⟩, known, keeps⟩ := dismissed
  exact ⟨repository, ⟨write, prior member, records⟩, Nat.lt_of_lt_of_le known onward.uuids,
    onward.keeps _ _ (dismissed_stays _) known keeps⟩

theorem AuditEntry.Overridden.onward {next : State} (overridden : entry.Overridden core before next)
    (onward : core.Onward core') : entry.Overridden core' before next := by
  obtain ⟨permit, mergeSha, now, pr, repo, told, found, merged, sha, first, live, known, keeps⟩ :=
    overridden
  exact ⟨permit, mergeSha, now, pr, repo, told, found, merged, sha, first, live,
    Nat.lt_of_lt_of_le known onward.uuids, onward.keeps _ _ (merged_stays _ _) known keeps⟩

theorem Written.Backed.onward (backed : write.Backed core before) (onward : core.Onward core') :
    write.Backed core' before := by
  cases write with
  | receipt entry =>
    exact ⟨backed.1, fun closes => (backed.2 closes).onward onward (List.Subset.refl _)⟩
  | snapshot next carried =>
    refine ⟨backed.1, fun entry given => ?_⟩
    obtain ⟨unclosed, overridden⟩ := backed.2 entry given
    exact ⟨unclosed, fun closes => (overridden closes).onward onward⟩
  | rows append => exact backed

/-- A write that closes no override, and what it tells of dismissals is so. -/
def Written.Plain (core : ForgeCore) : Written → Prop
  | .receipt entry => ¬entry.ClosesOverride ∧
      (entry.ClosesDismissal → entry.detail.Dismissed core core.journal)
  | .snapshot next carried => next.Requested core.journal ∧
      ∀ entry, carried = some entry → entry.Ordinary
  | .rows append => (rows append).Appends

theorem AuditEntry.Ordinary.plain (ordinary : entry.Ordinary) : (Written.receipt entry).Plain core :=
  ⟨ordinary.2, fun closes => absurd closes ordinary.1⟩

theorem Written.Plain.backed (plain : write.Plain core) (onward : core.Onward core')
    (prior : core.journal ⊆ before) : write.Backed core' before := by
  cases write with
  | receipt entry => exact ⟨plain.1, fun closes => (plain.2 closes).onward onward prior⟩
  | snapshot next carried =>
    refine ⟨plain.1.mono prior, fun entry given => ?_⟩
    have ordinary := plain.2 entry given
    exact ⟨ordinary.1, fun closes => absurd closes ordinary.2⟩
  | rows append => exact plain

theorem Written.Plain.not_overrides (plain : write.Plain core) : ¬write.Overrides id := by
  cases write with
  | receipt entry => exact fun none => none
  | snapshot next carried =>
    cases carried with
    | none => exact fun none => none
    | some entry => exact fun overrides => (plain.2 entry rfl).2 overrides.1
  | rows append => exact fun none => none

/-- More writes after a journal whose writes were backed. -/
theorem ForgeCore.Receipted.step (receipted : core.Receipted) (onward : core.Onward core')
    (journal : core'.journal = core.journal ++ writes)
    (backed : ∀ before write, before ++ [write] <+: writes →
      write.Backed core' (core.journal ++ before))
    (requested : core'.state.Requested core'.journal)
    (settled : ∀ id, id < core.uuids → core.Settled id → core'.Settled id)
    (new : ∀ write ∈ writes, ∀ id, write.Overrides id → id < core'.uuids ∧ core'.Settled id) :
    core'.Receipted := by
  refine ⟨?_, requested, fun write member id overrides => ?_⟩
  · rw [journal]
    exact (receipted.backed.mono fun _ _ _ known => known.onward onward).append backed
  · rw [journal] at member
    rcases List.mem_append.mp member with old | here
    · obtain ⟨known, merged⟩ := receipted.settled write old id overrides
      exact ⟨Nat.lt_of_lt_of_le known onward.uuids, settled id known merged⟩
    · exact new write here id overrides

theorem ForgeCore.Receipted.plain (receipted : core.Receipted) (onward : core.Onward core')
    (journal : core'.journal = core.journal ++ writes)
    (plain : ∀ write ∈ writes, write.Plain core)
    (requested : core'.state.Requested core.journal)
    (settled : ∀ id, id < core.uuids → core.Settled id → core'.Settled id) : core'.Receipted := by
  refine receipted.step onward journal (fun before write prior => ?_) ?_ settled ?_
  · have member : write ∈ writes := prior.subset (by simp)
    exact (plain write member).backed onward (List.subset_append_left _ _)
  · rw [journal]
    exact requested.mono (List.subset_append_left _ _)
  · exact fun write member id overrides => absurd overrides (plain write member).not_overrides

end Kept

/-- What the tables hold was asked for, too. -/
theorem ForgeCore.Receipted.durable {core : ForgeCore} (receipted : core.Receipted) :
    core.tables.Requested core.journal := by
  have appends (write : Written) (member : write ∈ core.journal) : write.Appends := by
    obtain ⟨before, -, backed⟩ := receipted.backed.of_mem member
    cases write with
    | receipt entry => exact True.intro
    | snapshot next carried => exact True.intro
    | rows append => exact backed
  obtain ⟨base, deployments, same, origin⟩ := tablesOf_append [] appends
  have held : core.tables = { base with deployments } := same
  rw [held]
  rcases origin with rfl | ⟨carried, member⟩
  · exact requested_empty _
  · obtain ⟨before, prior, backed⟩ := receipted.backed.of_mem member
    exact backed.1.mono (List.Subset.trans (List.subset_append_left _ _) prior.subset)

/-- What a receipt among the new writes says of dismissals is so. -/
def ForgeCore.Closes (core core' : ForgeCore) : Prop :=
  ∀ entry, Written.receipt entry ∈ core'.journal.drop core.journal.length →
    entry.ClosesDismissal → entry.detail.Dismissed core core.journal

section Sections

variable {call : Call} {core core' : ForgeCore} {reply : Option call.Reply}

theorem override_ne_dismissal : mergeOverrideAction ≠ dismissalAuditAction := by decide +kernel

theorem Call.Audited.not_override {action : String} {phase : AuditPhase}
    (audited : call.Audited action phase) (unforged : ¬call.Forges) :
    ¬(action = mergeOverrideAction ∧ phase = .completed) := by
  rintro ⟨named, completed⟩
  cases audited with
  | appendAuditAs => exact unforged ⟨completed, .inr named⟩
  | requestedOverride => cases completed
  | refusedOverride => cases completed
  | finalizeMergeWithOverride => cases completed
  | setRepositoryArchived | setDefaultBranchProtectionOptOut | deleteBranchProtection
  | rekeyEncodedBranchProtections | recordPullRequestBase | createReview | dismissReview
  | renameRepository => exact absurd named (by decide +kernel)

/-- A section of a call that neither dismisses nor overrides. -/
theorem Effect.receipted (effect : Effect call core core') (onDisk : core.OnDisk)
    (receipted : core.Receipted) (unforged : ¬call.Forges) (kept : ¬call.Dismisses)
    (unaccompanied : ∀ next entry, call.Accompanies core next entry → entry.Ordinary)
    (closes : core.Closes core') : core'.Receipted := by
  obtain ⟨writes, journal, known⟩ := effect.written
  have requested (next : State)
      (moves : Moves (call.footprint core.state core.uuids core'.uuids) core.state next) :
      next.Requested core.journal := moves.requested kept receipted.requested
  refine receipted.plain (effect.onward onDisk) journal (fun write member => ?_)
    (requested _ effect.moves) fun id old settled => effect.settled settled old
  obtain ⟨follows, tells⟩ := known write member
  cases write with
  | receipt entry =>
    refine ⟨Call.Audited.not_override tells unforged, fun closing => closes entry ?_ closing⟩
    rw [journal, List.drop_left]
    exact member
  | snapshot next carried =>
    refine ⟨requested next follows.2, fun entry given => ?_⟩
    cases given
    exact unaccompanied next entry tells
  | rows append => exact follows.appends

theorem ForgeCore.tables_snapshot {next : State} {writes : List Written} {carried : Option AuditEntry}
    (journal : core'.journal = core.journal ++ (writes ++ [.snapshot next carried])) :
    ∃ deployments, core'.tables = { next with deployments } := by
  refine ⟨(tablesOf (core.journal ++ writes)).deployments, ?_⟩
  unfold ForgeCore.tables tablesOf
  rw [journal, ← List.append_assoc, List.foldl_append]
  rfl

/-- A transaction with a receipt commits, or its caller is told that it did not. -/
theorem ForgeCore.persist_carried (attached : core.storage.isSome = true) (next : State)
    (entry : AuditEntry) :
    (core.persist next (some entry) = .ok () ∧ core.commits next = true) ∨
      ((∃ error, core.persist next (some entry) = .error error) ∧ core.commits next = false) := by
  obtain ⟨store, stored⟩ := Option.isSome_iff_exists.mp attached
  simp only [ForgeCore.persist, ForgeCore.commits, stored, Option.any_some]
  cases staged : next.stageState with
  | error error => exact .inr ⟨⟨error, rfl⟩, rfl⟩
  | ok _ =>
    cases committed : store.transaction next with
    | error error => exact .inr ⟨⟨error, by simp⟩, rfl⟩
    | ok _ => exact .inl ⟨by simp, rfl⟩

/-- A commit under a receipt moves memory and tables together, or neither. -/
theorem Outcome.leaves_carried {α : Type} (attached : core.storage.isSome = true) (next : State)
    (entry : AuditEntry) (value : α) {left : ForgeCore}
    (leaves : left = (commit [] 0 next (some entry) value : Outcome α).leaves core) :
    left.uuids = core.uuids ∧
      ((left.state = next ∧ left.journal = core.journal ++ [.snapshot next (some entry)]) ∨
        (left.state = core.state ∧ left.journal = core.journal)) := by
  have journal := Outcome.leaves_journal (commit [] 0 next (some entry) value : Outcome α) core
  have nothing : core.recorded ([] : List Written) = [] := by
    unfold ForgeCore.recorded
    split <;> rfl
  simp only [Outcome.writes, List.map_nil, nothing, List.nil_append] at journal
  rw [← leaves] at journal
  have same := core.persist_logged [] 0 next (some entry)
  rcases core.persist_carried attached next entry with
    ⟨persisted, committed⟩ | ⟨⟨error, refused⟩, uncommitted⟩
  · rw [if_pos committed] at journal
    simp only [Outcome.leaves, Outcome.settle, same, persisted] at leaves
    refine ⟨?_, .inl ⟨?_, journal⟩⟩
    · simp [leaves, ForgeCore.saved, ForgeCore.logged]
    · simp [leaves]
  · rw [if_neg (by simp [uncommitted]), List.append_nil] at journal
    simp only [Outcome.leaves, Outcome.settle, same, refused] at leaves
    refine ⟨?_, .inr ⟨?_, journal⟩⟩
    · simp [leaves, ForgeCore.saved, ForgeCore.logged]
    · simp [leaves, ForgeCore.saved, ForgeCore.logged]

/-- The section of an override that records the merge, or leaves everything as it was. -/
structure OverrideRecorded (core core' : ForgeCore) (permit : MergeOverridePermit) (mergeSha : String)
    (pr : PullRequest) : Prop where
  found : core.state.pulls.lookup (permit.owner, permit.repo, permit.number) = some pr
  unmerged : pr.merged = false
  recorded : core'.state.pulls.lookup (permit.owner, permit.repo, permit.number) =
    some (mergedPull pr mergeSha core.now)
  journal : core'.journal = core.journal ++
    [.snapshot core'.state (some (permit.completedReceipt mergeSha core.now))]

theorem finalizeWithOverride_cases {ticket : Nat} {permit : MergeOverridePermit} {mergeSha : String}
    {reply : Option (Except Failure MergeResult)}
    (sect : Section (.finalizeMergeWithOverride ticket permit mergeSha) core core' reply)
    (attached : core.storage.isSome = true) :
    (∃ pr, OverrideRecorded core core' permit mergeSha pr) ∨
      (core'.state = core.state ∧ ∃ entries : List AuditEntry,
        core'.journal = core.journal ++ entries.map .receipt ∧
        ∀ entry ∈ entries, entry.action = mergeOverrideAction ∧ entry.phase = .failed) := by
  have still {core' : ForgeCore} (same : core' = core) : core'.state = core.state ∧
      ∃ entries : List AuditEntry, core'.journal = core.journal ++ entries.map .receipt ∧
        ∀ entry ∈ entries, entry.action = mergeOverrideAction ∧ entry.phase = .failed :=
    ⟨by rw [same], [], by simp [same], fun _ none => absurd none List.not_mem_nil⟩
  cases sect with
  | audit entry audited =>
    right
    have written := core.logged_journal [entry]
    have kept : core.recorded ([entry].map .receipt) = [entry].map .receipt := by
      unfold ForgeCore.recorded
      rw [if_pos attached]
    rw [kept] at written
    refine ⟨rfl, [entry], written, fun other member => ?_⟩
    cases List.mem_singleton.mp member
    rcases entry with ⟨occurredAt, actor, action, subject, phase, detail⟩
    cases audited
    exact ⟨rfl, rfl⟩
  | refused audited => exact .inr (still rfl)
  | profile profiled => cases profiled
  | finalizeMergeWithOverride =>
    rcases finalizeLocked_cases core permit.owner permit.repo permit.number (permit.binding mergeSha)
      (some permit) with ⟨error, refused⟩ | ⟨pr, message, found, merged, unchanged⟩ |
      ⟨pr, message, found, finalizable, recorded⟩
    · rw [refused]
      exact .inr (still rfl)
    · rw [unchanged]
      exact .inr (still rfl)
    · rw [recorded]
      rcases Outcome.leaves_carried attached _ _ _ rfl with
        ⟨-, ⟨state, journal⟩ | ⟨state, journal⟩⟩
      · have stored : (recordMerge core (permit.owner, permit.repo, permit.number) pr
            mergeSha).pulls.lookup (permit.owner, permit.repo, permit.number) =
              some (mergedPull pr mergeSha core.now) := by
          rw [lookup_recordMerge]
          exact lookup_insert_self ..
        refine .inl ⟨pr, found, finalizable.unmerged, ?_, journal.trans ?_⟩
        · exact (congrArg (fun s : State => s.pulls.lookup _) state).trans stored
        · exact congrArg (fun s => core.journal ++ [Written.snapshot s _]) state.symm
      · exact .inr ⟨state, [], by simpa using journal, fun _ none => absurd none List.not_mem_nil⟩

theorem OverrideRecorded.receipted {permit : MergeOverridePermit} {mergeSha : String}
    {pr : PullRequest} (recorded : OverrideRecorded core core' permit mergeSha pr)
    (effect : Effect call core core') (kept : ¬call.Dismisses) (onDisk : core.OnDisk)
    (receipted : core.Receipted) : core'.Receipted := by
  have after : core'.OnDisk := effect.onDisk onDisk
  have onward : core.Onward core' := effect.onward onDisk
  have tables : ∃ deployments, core'.tables = { core'.state with deployments } :=
    @ForgeCore.tables_snapshot core core' _ [] _ recorded.journal
  have requested : core'.state.Requested core.journal :=
    effect.moves.requested kept receipted.requested
  refine receipted.step onward recorded.journal (fun before write prior => ?_) ?_
    (fun id old settled => effect.settled settled old) fun write member id overrides => ?_
  · obtain ⟨rfl, rfl⟩ := prefix_singleton prior
    rw [List.append_nil]
    refine ⟨requested, fun entry given => ?_⟩
    cases given
    refine ⟨fun closes => absurd closes.1 override_ne_dismissal, fun _ => ?_⟩
    obtain ⟨repo, live⟩ := after.state.rooted.pulls _ _ recorded.recorded
    refine ⟨permit, mergeSha, core.now, mergedPull pr mergeSha core.now, repo, rfl, recorded.recorded,
      rfl, rfl, fun earlier member overrides => ?_, live,
      after.state.coherent.identified.repoIds _ _ live, ?_⟩
    · have merged := (receipted.settled earlier member pr.id overrides).2.1 _ _ recorded.found rfl
      rw [recorded.unmerged] at merged
      cases merged
    · refine ForgeCore.keeps_committed (merged_stays _ _) after.state tables live ?_
      exact ⟨permit.number, _, recorded.recorded, rfl, rfl, rfl⟩
  · rw [recorded.journal]
    exact requested.mono (List.subset_append_left _ _)
  · cases List.mem_singleton.mp member
    obtain ⟨-, key, found, stored, own, merged⟩ := overrides
    have here : core'.state.Settled id := by
      intro key' pr' stored' own'
      have same := after.state.coherent.identified.pulls _ _ _ _ id stored stored' own own'
      subst same
      cases stored.symm.trans stored'
      exact merged
    refine ⟨own ▸ after.state.coherent.identified.pullIds _ _ stored, here, ?_⟩
    obtain ⟨deployments, same⟩ := tables
    rw [same]
    exact here

end Sections

end Jeryu.Core
