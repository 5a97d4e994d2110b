import Jeryu.Core.ReceiptSafety

/-!
No privileged act without its receipt, through every crash and restart.
-/

namespace Jeryu.Core

open KeyedMap HashMap LockProgram Relation Journal

section Steps

variable {call : Call} {core core' : ForgeCore}

theorem Section.receipted {reply : Option call.Reply} (sect : Section call core core' reply)
    (onDisk : core.OnDisk) (receipted : core.Receipted) (unforged : ¬call.Forges)
    (closes : core.Closes core') : core'.Receipted := by
  have effect := section_effect onDisk.coherent sect
  have plain (kept : ¬call.Dismisses)
      (unaccompanied : ∀ next entry, call.Accompanies core next entry → entry.Ordinary) :
      core'.Receipted := effect.receipted onDisk receipted unforged kept unaccompanied closes
  cases call with
  | dismissReview => exact dismissReview_receipted sect onDisk receipted closes
  | finalizeMergeWithOverride ticket permit mergeSha =>
    rcases finalizeWithOverride_cases sect onDisk.attached with
      ⟨pr, recorded⟩ | ⟨same, entries, journal, failed⟩
    · exact recorded.receipted effect (fun kept => kept) onDisk receipted
    · refine receipted.plain (effect.onward onDisk) journal (fun write member => ?_) ?_
        fun id old settled => effect.settled settled old
      · obtain ⟨entry, among, rfl⟩ := List.mem_map.mp member
        have phase := (failed entry among).2
        refine AuditEntry.Ordinary.plain ⟨fun closing => ?_, fun closing => ?_⟩
        · cases phase.symm.trans closing.2
        · cases phase.symm.trans closing.2
      · rw [same]
        exact receipted.requested
  | retargetPullRequest =>
    refine plain (fun kept => kept) fun next entry named => ?_
    change entry.action = "pull_request.retargeted" at named
    refine ⟨fun closing => ?_, fun closing => ?_⟩
    · exact absurd (named.symm.trans closing.1) (by decide +kernel)
    · exact absurd (named.symm.trans closing.1) (by decide +kernel)
  | _ => exact plain (fun kept => kept) fun _ _ none => none.elim

theorem Surroundings.receipted (moved : Surroundings AuditEntry.Ordinary core core')
    (receipted : core.Receipted) : core'.Receipted := by
  obtain ⟨writes, journal, known⟩ := moved.written
  refine receipted.plain moved.onward journal (fun write member => ?_) ?_
    fun id _ settled => moved.settled settled
  · have aside := known write member
    cases write with
    | receipt entry => exact AuditEntry.Ordinary.plain aside
    | snapshot next carried =>
      obtain ⟨-, ordinary, users, accounts, bots, grants, organizations, auth, deployments, rfl⟩ :=
        aside
      exact ⟨receipted.requested, ordinary⟩
    | rows append => exact aside
  · obtain ⟨users, accounts, bots, grants, organizations, auth, deployments, same⟩ := moved.state
    rw [same]
    exact receipted.requested

theorem Reopens.receipted (reopens : Reopens core core') (onDisk : core.OnDisk)
    (receipted : core.Receipted) : core'.Receipted := by
  have requested : core'.state.Requested core.journal := by
    obtain ⟨users, accounts, bots, grants, organizations, auth, deployments, counters, rules, same⟩ :=
      reopens.tables onDisk
    rw [same]
    exact receipted.durable
  have settled (id : Uuid) (_ : id < core.uuids) (merged : core.Settled id) : core'.Settled id :=
    reopens.settled onDisk merged
  rcases reopens.journal with same | ⟨-, written⟩
  · refine receipted.plain (reopens.onward onDisk) (by rw [same, List.append_nil])
      (fun write none => absurd none List.not_mem_nil) requested settled
  · refine receipted.plain (reopens.onward onDisk) written (fun write member => ?_) requested settled
    cases List.mem_singleton.mp member
    exact ⟨requested, fun entry none => (nomatch none)⟩

end Steps

/-- A section, and what its receipts say of dismissals. -/
def Call.Keeps (call : Call) (core core' : ForgeCore) (reply : Option call.Reply) : Prop :=
  Section call core core' reply ∧ (¬call.Forges → core.Closes core')

theorem onDisk_enduring : Enduring (onDisk AuditEntry.Ordinary) Unforged Reopens ForgeCore.OnDisk
    ForgeCore.Onward Call.Keeps Call.Promises where
  refl := .refl
  trans _ _ _ := .trans
  kept _ _ found onward := onward.onDisk found
  programs call core found := by
    have sections := (call_writes call).meets.meetsFrom (T := ForgeCore.Onward) core
    by_cases forges : call.Forges
    · exact sections.mono fun _ _ _ sect => ⟨sect, fun unforged => absurd forges unforged⟩
    · have closes := (call.movesFrom forges found).meets
      exact (sections.and closes).mono fun _ _ _ both => ⟨both.1, fun _ => both.2⟩
  ends call _ found := call.promises found
  stable _ _ _ _ onward promises := promises.onward onward
  ambient _ _ _ moved := moved.onward
  sections _ _ _ _ found _ keeps := (section_effect found.coherent keeps.1).onward found
  restarts _ _ found reopens := reopens.onward found

/-- An empty database, opened for the first time. -/
structure Pool.Fresh (pool : Pool) : Prop where
  empty : pool.shared.state = .empty
  attached : pool.shared.storage.isSome = true
  journal : pool.shared.journal = []
  idle : pool.tasks = []

theorem Pool.Fresh.onDisk {pool : Pool} (fresh : pool.Fresh) : pool.shared.OnDisk := by
  refine ⟨fresh.attached, ?_, ?_⟩
  · rw [fresh.empty]
    exact proper_empty _
  · unfold ForgeCore.tables
    rw [fresh.journal]
    exact proper_empty _

theorem Pool.Fresh.onCourse {pool : Pool} (fresh : pool.Fresh) :
    pool.OnCourse ForgeCore.OnDisk ForgeCore.Onward Call.Keeps Call.Promises := by
  refine ⟨fresh.onDisk, fun task member => ?_, fun task member => ?_⟩
  · rw [fresh.idle] at member
    cases member
  · rw [fresh.idle] at member
    cases member

theorem Pool.Fresh.receipted {pool : Pool} (fresh : pool.Fresh) : pool.shared.Receipted := by
  refine ⟨?_, ?_, fun write member => ?_⟩
  · rw [fresh.journal]
    exact justified_nil
  · rw [fresh.empty]
    exact requested_empty _
  · rw [fresh.journal] at member
    cases member

/-- What holds of a store on disk after any lives. -/
structure ReceiptsKept (pool : Pool) : Prop where
  /-- Every dismissal by an administrator in a durable snapshot was asked for by a durable receipt
      before it, every receipt that closes a dismissal or an override has the row or the merge it
      tells of, which memory and tables hold as long as they hold its repository, and no two close
      the override of one pull request. -/
  backed : Justified (Written.Backed pool.shared) pool.shared.journal
  durable : pool.shared.tables.Requested pool.shared.journal
  prepared : ∀ i owner repo number request target permit,
    pool.Answered i (.prepareMergeOverride owner repo number request) (.ok (target, permit)) →
    permit.Asked pool.shared.journal
  /-- A merge under an override and its receipt become durable together, or not at all. -/
  together : ∀ i ticket permit mergeSha reply (pool' : Pool),
    pool.Writes i (.finalizeMergeWithOverride ticket permit mergeSha) reply pool' →
    (∃ pr, OverrideRecorded pool.shared pool'.shared permit mergeSha pr) ∨
      (pool'.shared.state = pool.shared.state ∧ ∃ entries : List AuditEntry,
        pool'.shared.journal = pool.shared.journal ++ entries.map .receipt ∧
        ∀ entry ∈ entries, entry.action = mergeOverrideAction ∧ entry.phase = .failed)

/-- No privileged act without its receipt. -/
theorem receipts_kept {start pool : Pool} (fresh : start.Fresh)
    (lives : Lives (onDisk AuditEntry.Ordinary) Unforged Reopens start pool) : ReceiptsKept pool := by
  have receipted : pool.shared.Receipted :=
    onDisk_enduring.keeps (fun _ _ _ receipted moved => moved.receipted receipted)
      (fun call _ _ _ found receipted unforged keeps =>
        keeps.1.receipted found receipted unforged (keeps.2 unforged))
      (fun _ _ found receipted reopens => reopens.receipted found receipted) lives fresh.onCourse
      fresh.receipted
  obtain ⟨onCourse, -⟩ := onDisk_enduring.lives lives fresh.onCourse
  refine ⟨receipted.backed, receipted.durable, fun i owner repo number request target permit answered => ?_,
    fun i ticket permit mergeSha reply pool' writes => ?_⟩
  · exact onCourse.ends.answered answered (target, permit) rfl
  · have keeps := onCourse.onPace.writes (fun core => ForgeCore.Onward.refl core) writes
    exact finalizeWithOverride_cases keeps.1 onCourse.holds.attached

section Demo

/-- Whole calls one after the other, none of which forges a receipt. -/
theorem plays_honest {Own : AuditEntry → Prop} {pool : Pool} {calls : List Call}
    (plain : calls.all fun call => !spends (.alone call)) (honest : ∀ call ∈ calls, ¬call.Forges) :
    pool.Plays (onDisk Own) Unforged (calls.map .alone) :=
  plays_whole rfl plain fun call member _ _ => honest call member

/-- An administrator dismisses an approval, and the repository is dropped. -/
def dismissedAndDropped : List Call :=
  [.createAccount "root" "correct horse battery" .admin (.ok "hash"), .newDemo,
    .setBranchProtection "acme" "demo" "main" dismissalRule, .newPull "alice",
    reviewBy "bob" .approved, dismissBob, .deleteRepository "acme" "demo"]

def droppedPool : Pool := ForgeCore.durable.played (dismissedAndDropped.map .alone)

theorem fresh_durable : Pool.Fresh ⟨ForgeCore.durable, []⟩ := ⟨rfl, rfl, rfl, rfl⟩

theorem dropped_lives :
    Lives (onDisk AuditEntry.Ordinary) Unforged Reopens ⟨ForgeCore.durable, []⟩ droppedPool := by
  have plays : Config.Plays (onDisk AuditEntry.Ordinary) Unforged ⟨ForgeCore.durable, []⟩
      (dismissedAndDropped.map .alone) :=
    plays_honest rfl (by simp [dismissedAndDropped, Call.Forges, Call.newDemo, Call.newPull, reviewBy,
      dismissBob])
  have run : Run (onDisk AuditEntry.Ordinary) Unforged ⟨ForgeCore.durable, []⟩ droppedPool :=
    play_run plays
  exact run.lives

/-- A receipt that says a dismissal has gone through. -/
def Written.closesDismissal : Written → Bool
  | .receipt entry => entry.action == dismissalAuditAction && entry.phase == .completed
  | _ => false

theorem receipts_demo : droppedPool.shared.journal.any Written.closesDismissal = true ∧
    ReceiptsKept droppedPool :=
  ⟨by decide +kernel, receipts_kept fresh_durable dropped_lives⟩

/-- The receipt outlives the row: the audit log keeps what its repository took with it. -/
theorem receipt_outlives_row : ¬∀ start pool : Pool, start.Fresh →
    Lives (onDisk AuditEntry.Ordinary) Unforged Reopens start pool →
    ∀ entry, Written.receipt entry ∈ pool.shared.journal → entry.ClosesDismissal →
      ∃ slug, pool.shared.tables.DismissedAt entry.detail slug := by
  intro every
  have closed : droppedPool.shared.journal.any Written.closesDismissal = true := by decide +kernel
  obtain ⟨write, member, closes⟩ := List.any_eq_true.mp closed
  have dropped : droppedPool.shared.tables.reviews.keys = [] := by decide +kernel
  cases write with
  | receipt entry =>
    simp only [Written.closesDismissal, Bool.and_eq_true, beq_iff_eq] at closes
    obtain ⟨slug, n, rows, row, found, -⟩ :=
      every _ _ fresh_durable dropped_lives entry member closes
    have listed := mem_keys_of_lookup found
    rw [dropped] at listed
    cases listed
  | snapshot => cases closes
  | rows => cases closes

end Demo

end Jeryu.Core
