import Jeryu.Core.Runs

/-!
Repository transfers: a journal is opened prepared, and it is committed with the move of the
registry or failed without one, once.
-/

namespace Jeryu.Core

open KeyedMap HashMap LockProgram

def RepositoryTransferJournal.committed (journal : RepositoryTransferJournal) (now : DateTime)
    (receipt : Value) : RepositoryTransferJournal :=
  { journal with status := .committed, completedAt := some now, receipt := some receipt }

def RepositoryTransferJournal.failed (journal : RepositoryTransferJournal) (now : DateTime)
    (reason : String) : RepositoryTransferJournal :=
  { journal with status := .failed, completedAt := some now, failure := some reason }

/-- How a journal may go on. -/
inductive RepositoryTransferJournal.Settles (journal : RepositoryTransferJournal) :
    RepositoryTransferJournal → Prop where
  | same : Settles journal journal
  | committed (prepared : journal.status = .prepared) (now : DateTime) (receipt : Value) :
      Settles journal (journal.committed now receipt)
  | failed (prepared : journal.status = .prepared) (now : DateTime) (reason : String) :
      Settles journal (journal.failed now reason)

namespace RepositoryTransferJournal.Settles

variable {journal journal' last : RepositoryTransferJournal}

theorem transactionId (settles : journal.Settles journal') :
    journal'.transactionId = journal.transactionId := by
  cases settles <;> rfl

/-- A settled journal stays as it is. -/
theorem settled (settles : journal.Settles journal') (ended : journal.status ≠ .prepared) :
    journal' = journal := by
  cases settles with
  | same => rfl
  | committed prepared => exact absurd prepared ended
  | failed prepared => exact absurd prepared ended

theorem trans (first : journal.Settles journal') (second : journal'.Settles last) :
    journal.Settles last := by
  cases first with
  | same => exact second
  | committed prepared now receipt =>
    rw [second.settled (fun open_ => nomatch open_)]
    exact .committed prepared now receipt
  | failed prepared now reason =>
    rw [second.settled (fun open_ => nomatch open_)]
    exact .failed prepared now reason

end RepositoryTransferJournal.Settles

/-- The section that moves the registry and closes the journal under `key`. -/
structure CommitsTransfer (core core' : ForgeCore) (transactionId : Uuid) (receipt : Value)
    (key : String) (journal : RepositoryTransferJournal) (repo : Repository) : Prop where
  stored : core.state.repositoryTransfers.lookup key = some journal
  transaction : journal.transactionId = transactionId
  prepared : journal.status = .prepared
  source : core.state.repos.lookup journal.source = some repo
  repository : repo.id = journal.repositoryId
  vacant : core.state.repos.lookup journal.destination = none
  unaliased : core.state.repositoryAliases.lookup journal.destination = none
  moved : core'.state.repos = (core.state.repos.erase journal.source).insert journal.destination
    (movedRepository journal.destination core.now repo)
  closed : core'.state.repositoryTransfers =
    core.state.repositoryTransfers.insert key (journal.committed core.now receipt)

/-- The section that closes the journal under `key` and moves nothing. -/
structure FailsTransfer (core core' : ForgeCore) (transactionId : Uuid) (reason : String)
    (key : String) (journal : RepositoryTransferJournal) : Prop where
  stored : core.state.repositoryTransfers.lookup key = some journal
  transaction : journal.transactionId = transactionId
  prepared : journal.status = .prepared
  closed : core'.state = { core.state with
    repositoryTransfers :=
      core.state.repositoryTransfers.insert key (journal.failed core.now reason) }

/-- No two journals are of one transaction, and none of one still to be drawn. -/
structure State.TransfersApart (s : State) (uuids : Nat) : Prop where
  apart : s.repositoryTransfers.Apart fun journal id => journal.transactionId = id
  below : s.repositoryTransfers.Every fun _ journal => journal.transactionId < uuids

section Sections

variable {core core' : ForgeCore} {transactionId : Uuid} {key : String}
variable {journal : RepositoryTransferJournal}

theorem State.transferForId_some (found : core.state.transferForId transactionId = some (key, journal)) :
    core.state.repositoryTransfers.lookup key = some journal ∧ journal.transactionId = transactionId := by
  have member := List.mem_of_find?_eq_some found
  have same := List.find?_some found
  exact ⟨mem_pairs.mp member, by simpa using same⟩

/-- The journal of a transaction is the one found for it. -/
theorem State.TransfersApart.transferForId {s : State} {uuids : Nat} (ledger : s.TransfersApart uuids)
    (stored : s.repositoryTransfers.lookup key = some journal) :
    s.transferForId journal.transactionId = some (key, journal) := by
  cases found : s.transferForId journal.transactionId with
  | none =>
    have none := List.find?_eq_none.mp found (key, journal) (mem_pairs.mpr stored)
    simp at none
  | some pair =>
    obtain ⟨key', journal'⟩ := pair
    have member := mem_pairs.mp (List.mem_of_find?_eq_some found)
    have same : journal'.transactionId = journal.transactionId := by
      simpa using List.find?_some found
    obtain rfl := ledger.apart key' key journal' journal _ member stored same rfl
    cases member.symm.trans stored
    rfl

/-- What a commit does under the lock, and what it answers. -/
theorem commitTransferLocked_cases (core : ForgeCore) (transactionId : Uuid) (receipt : Value) :
    (∃ key journal repo,
      CommitsTransfer core ((commitTransferLocked transactionId receipt core).leaves core)
        transactionId receipt key journal repo ∧
      (commitTransferLocked transactionId receipt core).answers core =
        .ok (journal.committed core.now receipt)) ∨
    (((commitTransferLocked transactionId receipt core).leaves core).state = core.state ∧
      ∀ key journal, core.state.transferForId transactionId = some (key, journal) →
        journal.status = .committed →
        (commitTransferLocked transactionId receipt core).answers core = .ok journal) := by
  unfold commitTransferLocked
  split
  · next absent =>
    exact .inr ⟨rfl, fun key journal found => nomatch absent.symm.trans found⟩
  · next key journal found =>
    obtain ⟨stored, transaction⟩ := State.transferForId_some found
    split
    · exact .inr ⟨rfl, fun key' journal' found' _ => by cases found.symm.trans found'; rfl⟩
    · next status =>
      refine .inr ⟨rfl, fun key' journal' found' done => ?_⟩
      cases found.symm.trans found'
      cases status.symm.trans done
    · next status =>
      have open_ : ∀ key' journal', core.state.transferForId transactionId = some (key', journal') →
          journal'.status ≠ .committed := by
        intro key' journal' found' done
        cases found.symm.trans found'
        cases status.symm.trans done
      split
      · exact .inr ⟨rfl, fun key' journal' found' done => absurd done (open_ key' journal' found')⟩
      · next rekeyed moved =>
        obtain ⟨repo, source, vacant, unaliased, repository, rfl⟩ := rekeyRepository_ok moved
        simp only [Outcome.leaves, Outcome.answers, Outcome.settle]
        split
        · refine .inl ⟨key, journal, repo, ?_, rfl⟩
          exact { stored, transaction, prepared := status, source, repository, vacant, unaliased
                  moved := rfl, closed := rfl }
        · exact .inr ⟨rfl, fun key' journal' found' done => absurd done (open_ key' journal' found')⟩

/-- What a fail does under the lock, and what it answers. -/
theorem failTransferLocked_cases (core : ForgeCore) (transactionId : Uuid) (reason : String) :
    (∃ key journal,
      FailsTransfer core ((failTransferLocked transactionId reason core).leaves core)
        transactionId reason key journal ∧
      (failTransferLocked transactionId reason core).answers core =
        .ok (journal.failed core.now reason)) ∨
    (((failTransferLocked transactionId reason core).leaves core).state = core.state ∧
      ∀ key journal, core.state.transferForId transactionId = some (key, journal) →
        journal.status = .failed → journal.failure = some reason →
        (failTransferLocked transactionId reason core).answers core = .ok journal) := by
  unfold failTransferLocked
  split
  · next absent =>
    exact .inr ⟨rfl, fun key journal found => nomatch absent.symm.trans found⟩
  · next key journal found =>
    obtain ⟨stored, transaction⟩ := State.transferForId_some found
    split
    · next status =>
      refine .inr ⟨rfl, fun key' journal' found' done => ?_⟩
      cases found.symm.trans found'
      cases status.symm.trans done
    · split
      · exact .inr ⟨rfl, fun key' journal' found' _ _ => by cases found.symm.trans found'; rfl⟩
      · next other =>
        refine .inr ⟨rfl, fun key' journal' found' _ same => ?_⟩
        cases found.symm.trans found'
        exact absurd same other
    · next status =>
      simp only [Outcome.leaves, Outcome.answers, Outcome.settle]
      split
      · refine .inl ⟨key, journal, ?_, rfl⟩
        exact { stored, transaction, prepared := status, closed := rfl }
      · refine .inr ⟨rfl, fun key' journal' found' done => ?_⟩
        cases found.symm.trans found'
        cases status.symm.trans done

end Sections

/-- What a section of a call does to the journals. -/
inductive TransferWrite (call : Call) (core core' : ForgeCore) : Prop where
  | kept (older : core'.state.repositoryTransfers.Every fun key journal =>
      core.state.repositoryTransfers.lookup key = some journal)
  | opened {key : String} {journal : RepositoryTransferJournal}
      (fresh : core.uuids ≤ journal.transactionId) (below : journal.transactionId < core'.uuids)
      (written : core'.state.repositoryTransfers =
        core.state.repositoryTransfers.insert key journal)
  | committed {transactionId : Uuid} {receipt : Value} {key : String}
      {journal : RepositoryTransferJournal} {repo : Repository}
      (asked : call = .commitRepositoryTransfer transactionId receipt)
      (commits : CommitsTransfer core core' transactionId receipt key journal repo)
  | failed {transactionId : Uuid} {reason : String} {key : String}
      {journal : RepositoryTransferJournal}
      (asked : call = .failRepositoryTransfer transactionId reason)
      (fails : FailsTransfer core core' transactionId reason key journal)

section Writes

variable {call : Call} {core core' : ForgeCore} {print : Footprint} {s s' : State}

theorem TransferWrite.same
    (same : core'.state.repositoryTransfers = core.state.repositoryTransfers) :
    TransferWrite call core core' :=
  .kept fun _ _ found => same ▸ found

theorem Touch.transfers (touch : Touch print s s') (still : ¬print.journals) :
    s'.repositoryTransfers = s.repositoryTransfers := by
  cases touch with
  | defaultBranchSet => rw [State.ensureDefaultBranchProtection_eq]
  | optOutSet => rw [State.withOptOut_eq]
  | @issueOpened numbered issue may within next =>
    have counted : numbered = (s.nextRecordNumber issue.owner issue.repo).2 := by rw [next]
    rw [counted]
    rfl
  | journalled may => exact absurd may still
  | _ => rfl

theorem Moves.transfers (moves : Moves print s s') (still : ¬print.journals)
    (settled : ¬print.shifts) : s'.repositoryTransfers = s.repositoryTransfers := by
  cases moves with
  | touches writes =>
    induction writes with
    | refl => rfl
    | tail _ touch ih => rw [touch.transfers still, ih]
  | shift may => exact absurd may settled

theorem createRepositoryLocked_transfers (owner : String) (request : CreateRepositoryRequest)
    (core : ForgeCore) :
    ((createRepositoryLocked owner request core).leaves core).state.repositoryTransfers =
      core.state.repositoryTransfers := by
  have commits : (createRepositoryLocked owner request core).Commits fun _ next _ =>
      next.repositoryTransfers = core.state.repositoryTransfers := by
    unfold createRepositoryLocked
    dsimp only
    split
    · exact True.intro
    · simp only [Outcome.commits_commit]
      rw [State.ensureDefaultBranchProtection_eq]
  rcases Outcome.leaves_state commits with same | ⟨draws, next, value, known, moved, -⟩
  · rw [same]
  · rw [moved, known]

theorem deleteRepositoryLocked_transfers (owner repo : String) (core : ForgeCore) :
    ((deleteRepositoryLocked owner repo core).leaves core).state.repositoryTransfers.Every
      fun key journal => core.state.repositoryTransfers.lookup key = some journal := by
  have stored : core.state.repositoryTransfers.Every fun key journal =>
      core.state.repositoryTransfers.lookup key = some journal := fun _ _ found => found
  have commits : (deleteRepositoryLocked owner repo core).Commits fun _ next _ =>
      next.repositoryTransfers.Every fun key journal =>
        core.state.repositoryTransfers.lookup key = some journal := by
    unfold deleteRepositoryLocked
    split
    · exact True.intro
    · exact stored.retain _
  rcases Outcome.leaves_state commits with same | ⟨draws, next, value, known, moved, -⟩
  · rw [same]
    exact stored
  · rw [moved]
    exact known

/-- A journal inserted under an identifier drawn with it. -/
def OpensJournal (core : ForgeCore) (draws : Nat) (next : State) : Prop :=
  ∃ key journal, journal.transactionId = core.uuids ∧ 0 < draws ∧
    next.repositoryTransfers = core.state.repositoryTransfers.insert key journal

theorem writeRenameLocked_opens (old new : Slug) (core : ForgeCore) :
    (writeRenameLocked old new core).Commits fun draws next _ => OpensJournal core draws next := by
  unfold writeRenameLocked
  dsimp only
  split
  · exact True.intro
  · next current found =>
    refine Outcome.commits_ite (fun _ => True.intro) fun _ => ?_
    refine Outcome.commits_ite (fun _ => True.intro) fun _ => ?_
    refine Outcome.commits_ite (fun _ => True.intro) fun _ => ?_
    refine Outcome.commits_ite (fun _ => True.intro) fun _ => ?_
    split
    · exact True.intro
    · next rekeyed moved =>
      split
      · exact True.intro
      · obtain ⟨repository, -, -, -, -, rfl⟩ := rekeyRepository_ok moved
        exact ⟨_, renameJournal old new current.id core.uuids core.now, rfl, Nat.one_pos, rfl⟩

theorem prepareTransferLocked_opens (request : PrepareRepositoryTransfer) (core : ForgeCore) :
    (prepareTransferLocked request core).Commits fun draws next _ => OpensJournal core draws next := by
  unfold prepareTransferLocked
  dsimp only
  split
  · split <;> exact True.intro
  · split
    · exact True.intro
    · refine Outcome.commits_ite (fun _ => True.intro) fun _ => ?_
      refine Outcome.commits_ite (fun _ => True.intro) fun _ => ?_
      refine Outcome.commits_ite (fun _ => True.intro) fun _ => ?_
      exact ⟨_, _, rfl, Nat.one_pos, rfl⟩

theorem TransferWrite.opens {α : Type} {outcome : Outcome α}
    (commits : outcome.Commits fun draws next _ => OpensJournal core draws next) :
    TransferWrite call core (outcome.leaves core) := by
  rcases Outcome.leaves_state commits with same | ⟨draws, next, value, known, moved, drawn⟩
  · exact .same (by rw [same])
  · obtain ⟨key, journal, own, positive, written⟩ := known
    refine .opened (Nat.le_of_eq own.symm) ?_ (by rw [moved, written])
    rw [drawn, own]
    exact Nat.lt_add_of_pos_right positive

/-- What each section does to the journals. -/
theorem section_transfers {reply : Option call.Reply} (coherent : core.Coherent)
    (sect : Section call core core' reply) : TransferWrite call core core' := by
  have effect := section_effect coherent sect
  by_cases still : call.Journals ∨ call.Shifts
  · cases sect with
    | createRepository => exact .same (createRepositoryLocked_transfers ..)
    | @deleteRepository owner repo => exact .kept (deleteRepositoryLocked_transfers owner repo core)
    | renameRepository => exact .opens (writeRenameLocked_opens ..)
    | prepareRepositoryTransfer => exact .opens (prepareTransferLocked_opens ..)
    | @commitRepositoryTransfer transactionId receipt =>
      rcases commitTransferLocked_cases core transactionId receipt with
        ⟨key, journal, repo, commits, -⟩ | ⟨same, -⟩
      · exact .committed rfl commits
      · exact .same (by rw [same])
    | @failRepositoryTransfer transactionId reason =>
      rcases failTransferLocked_cases core transactionId reason with ⟨key, journal, fails, -⟩ | ⟨same, -⟩
      · exact .failed rfl fails
      · exact .same (by rw [same])
    | audit => exact .same rfl
    | refused => exact .same rfl
    | profile profiled => cases profiled <;> exact absurd still (by simp [Call.Journals, Call.Shifts])
    | _ => exact absurd still (by simp [Call.Journals, Call.Shifts])
  · obtain ⟨unjournalled, settled⟩ := not_or.mp still
    exact .same (effect.moves.transfers unjournalled settled)

end Writes

/-- Every journal of `core'` is new, or goes back to one of `core`. -/
structure JournalsFrom (core core' : ForgeCore) : Prop where
  uuids : core.uuids ≤ core'.uuids
  journals : core'.state.repositoryTransfers.Every fun _ journal' =>
    journal'.transactionId < core.uuids →
      ∃ key journal, core.state.repositoryTransfers.lookup key = some journal ∧
        journal.Settles journal'

section Runs

variable {call : Call} {core core' : ForgeCore} {pool pool' : Pool}
variable {condition : Call → ForgeCore → Prop}

theorem transfersApart_empty (uuids : Nat) : State.empty.TransfersApart uuids :=
  ⟨apart_empty, every_empty⟩

theorem State.TransfersApart.same {s s' : State} {uuids uuids' : Nat}
    (ledger : s.TransfersApart uuids) (more : uuids ≤ uuids')
    (same : s'.repositoryTransfers = s.repositoryTransfers) : s'.TransfersApart uuids' := by
  refine ⟨same ▸ ledger.apart, ?_⟩
  rw [same]
  exact ledger.below.mono fun _ _ below => Nat.lt_of_lt_of_le below more

theorem Ambient.transfers (ambient : Ambient core core') :
    core'.state.repositoryTransfers = core.state.repositoryTransfers := by
  obtain ⟨users, accounts, bots, botRepoGrants, organizations, auth, same⟩ := ambient.state
  rw [same]

/-- The journal under a key, settled or not, is of the same transaction. -/
theorem State.TransfersApart.settle {s s' : State} {uuids uuids' : Nat}
    (ledger : s.TransfersApart uuids) (more : uuids ≤ uuids') {key : String}
    {journal journal' : RepositoryTransferJournal}
    (stored : s.repositoryTransfers.lookup key = some journal) (settles : journal.Settles journal')
    (written : s'.repositoryTransfers = s.repositoryTransfers.insert key journal') :
    s'.TransfersApart uuids' := by
  have same := settles.transactionId
  refine ⟨?_, ?_⟩
  · rw [written]
    exact ledger.apart.insert_edit stored fun id held => same.symm.trans held
  · rw [written]
    have below := ledger.below.mono fun _ _ below => Nat.lt_of_lt_of_le below more
    exact below.insert (same ▸ below _ _ stored)

theorem TransferWrite.apart (write : TransferWrite call core core') (more : core.uuids ≤ core'.uuids)
    (ledger : core.state.TransfersApart core.uuids) : core'.state.TransfersApart core'.uuids := by
  have below := ledger.below.mono fun _ _ below => Nat.lt_of_lt_of_le below more
  cases write with
  | kept older =>
    exact ⟨ledger.apart.restrict fun key journal found => ⟨journal, older _ _ found, fun _ held => held⟩,
      fun key journal found => below _ _ (older _ _ found)⟩
  | opened fresh drawn written =>
    refine ⟨?_, ?_⟩
    · rw [written]
      refine ledger.apart.insert fun other stored id _ found held held' => ?_
      have old : stored.transactionId < core.uuids := ledger.below _ _ found
      rw [held', ← held] at old
      exact absurd old (Nat.not_lt.mpr fresh)
    · rw [written]
      exact below.insert drawn
  | committed asked commits =>
    exact ledger.settle more commits.stored (.committed commits.prepared _ _) commits.closed
  | failed asked fails =>
    exact ledger.settle more fails.stored (.failed fails.prepared _ _) (by rw [fails.closed])

theorem Pool.ReachableWhen.transfersApart (reachable : pool.ReachableWhen condition) :
    pool.shared.state.TransfersApart pool.shared.uuids := by
  refine reachable.invariant (I := fun core => core.state.TransfersApart core.uuids) (fun core empty => ?_)
    (fun core core' ledger moved => ledger.same moved.uuids moved.transfers)
    fun call core core' reply coherent ledger _ sect effect => ?_
  · rw [empty]
    exact transfersApart_empty _
  · exact (section_transfers coherent sect).apart effect.uuids ledger

theorem JournalsFrom.refl (core : ForgeCore) : JournalsFrom core core :=
  ⟨Nat.le_refl _, fun key journal found _ => ⟨key, journal, found, .same⟩⟩

theorem JournalsFrom.trans {last : ForgeCore} (earlier : JournalsFrom core core')
    (later : JournalsFrom core' last) : JournalsFrom core last := by
  refine ⟨earlier.uuids.trans later.uuids, fun key journal found old => ?_⟩
  obtain ⟨key', journal', found', settles'⟩ :=
    later.journals key journal found (Nat.lt_of_lt_of_le old earlier.uuids)
  rw [settles'.transactionId] at old
  obtain ⟨key'', journal'', found'', settles''⟩ := earlier.journals key' journal' found' old
  exact ⟨key'', journal'', found'', settles''.trans settles'⟩

theorem JournalsFrom.same (uuids : core.uuids ≤ core'.uuids)
    (older : core'.state.repositoryTransfers.Every fun key journal =>
      core.state.repositoryTransfers.lookup key = some journal) : JournalsFrom core core' :=
  ⟨uuids, fun key journal found _ => ⟨key, journal, older key journal found, .same⟩⟩

/-- One journal written, the others as they were. -/
theorem JournalsFrom.insert {key : String} {journal' : RepositoryTransferJournal}
    (uuids : core.uuids ≤ core'.uuids)
    (written : core'.state.repositoryTransfers = core.state.repositoryTransfers.insert key journal')
    (origin : journal'.transactionId < core.uuids →
      ∃ key journal, core.state.repositoryTransfers.lookup key = some journal ∧
        journal.Settles journal') : JournalsFrom core core' := by
  refine ⟨uuids, ?_⟩
  rw [written]
  refine Every.insert (fun key journal found _ => ?_) origin
  exact ⟨key, journal, found, .same⟩

theorem TransferWrite.journalsFrom (write : TransferWrite call core core')
    (uuids : core.uuids ≤ core'.uuids) : JournalsFrom core core' := by
  cases write with
  | kept older => exact .same uuids older
  | opened fresh below written =>
    exact .insert uuids written fun old => absurd old (Nat.not_lt.mpr fresh)
  | committed asked commits =>
    exact .insert uuids commits.closed fun _ =>
      ⟨_, _, commits.stored, .committed commits.prepared _ _⟩
  | failed asked fails =>
    exact .insert uuids (by rw [fails.closed]) fun _ =>
      ⟨_, _, fails.stored, .failed fails.prepared _ _⟩

theorem Pool.ReachableWhen.journalsFrom (reachable : pool.ReachableWhen condition)
    (run : Run forge (Guarded condition) pool pool') : JournalsFrom pool.shared pool'.shared :=
  reachable.along run .refl (fun _ _ _ => .trans)
    (fun _ _ moved => .same moved.uuids fun _ _ found => moved.transfers ▸ found)
    fun _ _ _ _ coherent _ sect effect =>
      (section_transfers coherent sect).journalsFrom effect.uuids

/-- Two journals of one transaction, one of them of an earlier pool. -/
theorem Pool.ReachableWhen.settles (reachable : pool.ReachableWhen condition)
    (run : Run forge (Guarded condition) pool pool') {key key' : String}
    {journal journal' : RepositoryTransferJournal}
    (stored : pool.shared.state.repositoryTransfers.lookup key = some journal)
    (stored' : pool'.shared.state.repositoryTransfers.lookup key' = some journal')
    (same : journal'.transactionId = journal.transactionId) : journal.Settles journal' := by
  have ledger := reachable.transfersApart
  have old : journal'.transactionId < pool.shared.uuids := same ▸ ledger.below _ _ stored
  obtain ⟨first, journal₀, found, settles⟩ :=
    (reachable.journalsFrom run).journals key' journal' stored' old
  have own : journal₀.transactionId = journal.transactionId := settles.transactionId.symm.trans same
  obtain rfl := ledger.apart first key journal₀ journal _ found stored own rfl
  cases found.symm.trans stored
  exact settles

end Runs

/-- Every transaction of the pool is settled at most once, in a commit that moves the registry
    or in a fail that does not. -/
structure TransfersOnce (pool : Pool) : Prop where
  /-- A status changes at most once along a run, from prepared. -/
  settles : ∀ pool' : Pool, Run forge (Guarded anyCall) pool pool' →
    ∀ key key' journal journal',
      pool.shared.state.repositoryTransfers.lookup key = some journal →
      pool'.shared.state.repositoryTransfers.lookup key' = some journal' →
      journal'.transactionId = journal.transactionId → journal.Settles journal'
  /-- Only a commit that moves the registry and a fail settle a transaction. -/
  settled : ∀ (i : Nat) (call : Call) (reply : Option call.Reply) (pool' : Pool),
    pool.Writes i call reply pool' → ∀ key key' journal journal',
      pool.shared.state.repositoryTransfers.lookup key = some journal →
      pool'.shared.state.repositoryTransfers.lookup key' = some journal' →
      journal'.transactionId = journal.transactionId → journal' ≠ journal →
      (∃ receipt repo, call = .commitRepositoryTransfer journal.transactionId receipt ∧
        CommitsTransfer pool.shared pool'.shared journal.transactionId receipt key journal repo) ∨
      ∃ reason, call = .failRepositoryTransfer journal.transactionId reason ∧
        FailsTransfer pool.shared pool'.shared journal.transactionId reason key journal
  /-- A commit moves the registry and answers the closed journal, or it changes nothing and
      answers the journal that is committed already. -/
  commits : ∀ (i : Nat) (transactionId : Uuid) (receipt : Value)
    (reply : Option (Except Failure RepositoryTransferJournal)) (pool' : Pool),
    pool.Writes i (.commitRepositoryTransfer transactionId receipt) reply pool' →
      (∃ key journal repo, reply = some (.ok (journal.committed pool.shared.now receipt)) ∧
        CommitsTransfer pool.shared pool'.shared transactionId receipt key journal repo) ∨
      (pool'.shared.state = pool.shared.state ∧ ∀ key journal,
        pool.shared.state.repositoryTransfers.lookup key = some journal →
        journal.transactionId = transactionId → journal.status = .committed →
        reply = some (.ok journal))
  fails : ∀ (i : Nat) (transactionId : Uuid) (reason : String)
    (reply : Option (Except Failure RepositoryTransferJournal)) (pool' : Pool),
    pool.Writes i (.failRepositoryTransfer transactionId reason) reply pool' →
      (∃ key journal, reply = some (.ok (journal.failed pool.shared.now reason)) ∧
        FailsTransfer pool.shared pool'.shared transactionId reason key journal) ∨
      (pool'.shared.state = pool.shared.state ∧ ∀ key journal,
        pool.shared.state.repositoryTransfers.lookup key = some journal →
        journal.transactionId = transactionId → journal.status = .failed →
        journal.failure = some reason → reply = some (.ok journal))
  /-- Neither leaves a trace where it answers an error. -/
  refused : ∀ (i : Nat) (call : Call) (reply : Option call.Reply) (pool' : Pool),
    pool.Writes i call reply pool' →
      (∃ transactionId receipt, call = .commitRepositoryTransfer transactionId receipt) ∨
        (∃ transactionId reason, call = .failRepositoryTransfer transactionId reason) →
      (∀ answer, reply ≠ some (.ok answer)) → pool'.shared.state = pool.shared.state
  /-- What a settled transaction answers for the rest of the run, wherever its repository is. -/
  repeated : ∀ last : Pool, Run forge (Guarded anyCall) pool last → ∀ key journal,
    pool.shared.state.repositoryTransfers.lookup key = some journal → ∀ (i : Nat) (last' : Pool)
      (reply : Option (Except Failure RepositoryTransferJournal)),
      (∀ receipt, journal.status = .committed →
        last.Writes i (.commitRepositoryTransfer journal.transactionId receipt) reply last' →
        last'.shared.state = last.shared.state ∧ ∀ key' journal',
          last.shared.state.repositoryTransfers.lookup key' = some journal' →
          journal'.transactionId = journal.transactionId → reply = some (.ok journal)) ∧
      (∀ reason, journal.status = .failed → journal.failure = some reason →
        last.Writes i (.failRepositoryTransfer journal.transactionId reason) reply last' →
        last'.shared.state = last.shared.state ∧ ∀ key' journal',
          last.shared.state.repositoryTransfers.lookup key' = some journal' →
          journal'.transactionId = journal.transactionId → reply = some (.ok journal))

section Once

variable {pool pool' : Pool} {i : Nat} {transactionId : Uuid}
variable {reply : Option (Except Failure RepositoryTransferJournal)}

theorem Pool.ReachableWhen.commits_cases {condition : Call → ForgeCore → Prop}
    (reachable : pool.ReachableWhen condition) {receipt : Value}
    (writes : pool.Writes i (.commitRepositoryTransfer transactionId receipt) reply pool') :
    (∃ key journal repo, reply = some (.ok (journal.committed pool.shared.now receipt)) ∧
      CommitsTransfer pool.shared pool'.shared transactionId receipt key journal repo) ∨
    (pool'.shared.state = pool.shared.state ∧ ∀ key journal,
      pool.shared.state.repositoryTransfers.lookup key = some journal →
      journal.transactionId = transactionId → journal.status = .committed →
      reply = some (.ok journal)) := by
  have ledger := reachable.transfersApart
  have sect := reachable.writes writes
  generalize pool.shared = core at ledger sect ⊢
  generalize pool'.shared = core' at sect ⊢
  cases sect with
  | audit entry audited => cases audited
  | refused audited => cases audited
  | profile profiled => cases profiled
  | commitRepositoryTransfer =>
    rcases commitTransferLocked_cases core transactionId receipt with
      ⟨key, journal, repo, commits, answered⟩ | ⟨same, replays⟩
    · exact .inl ⟨key, journal, repo, congrArg some answered, commits⟩
    · refine .inr ⟨same, fun key journal stored own done => congrArg some ?_⟩
      exact replays key journal (own ▸ ledger.transferForId stored) done

theorem Pool.ReachableWhen.fails_cases {condition : Call → ForgeCore → Prop}
    (reachable : pool.ReachableWhen condition) {reason : String}
    (writes : pool.Writes i (.failRepositoryTransfer transactionId reason) reply pool') :
    (∃ key journal, reply = some (.ok (journal.failed pool.shared.now reason)) ∧
      FailsTransfer pool.shared pool'.shared transactionId reason key journal) ∨
    (pool'.shared.state = pool.shared.state ∧ ∀ key journal,
      pool.shared.state.repositoryTransfers.lookup key = some journal →
      journal.transactionId = transactionId → journal.status = .failed →
      journal.failure = some reason → reply = some (.ok journal)) := by
  have ledger := reachable.transfersApart
  have sect := reachable.writes writes
  generalize pool.shared = core at ledger sect ⊢
  generalize pool'.shared = core' at sect ⊢
  cases sect with
  | audit entry audited => cases audited
  | refused audited => cases audited
  | profile profiled => cases profiled
  | failRepositoryTransfer =>
    rcases failTransferLocked_cases core transactionId reason with
      ⟨key, journal, fails, answered⟩ | ⟨same, replays⟩
    · exact .inl ⟨key, journal, congrArg some answered, fails⟩
    · refine .inr ⟨same, fun key journal stored own ended why => congrArg some ?_⟩
      exact replays key journal (own ▸ ledger.transferForId stored) ended why

/-- A section under which a journal changed is the one that settled it. -/
theorem TransferWrite.settled {call : Call} {core core' : ForgeCore}
    (write : TransferWrite call core core') (ledger : core.state.TransfersApart core.uuids)
    {key key' : String} {journal journal' : RepositoryTransferJournal}
    (stored : core.state.repositoryTransfers.lookup key = some journal)
    (stored' : core'.state.repositoryTransfers.lookup key' = some journal')
    (same : journal'.transactionId = journal.transactionId) (changed : journal' ≠ journal) :
    (∃ receipt repo, call = .commitRepositoryTransfer journal.transactionId receipt ∧
      CommitsTransfer core core' journal.transactionId receipt key journal repo) ∨
    ∃ reason, call = .failRepositoryTransfer journal.transactionId reason ∧
      FailsTransfer core core' journal.transactionId reason key journal := by
  -- A journal of this transaction that was there before is the stored one.
  have only (key₀ : String) (journal₀ : RepositoryTransferJournal)
      (found : core.state.repositoryTransfers.lookup key₀ = some journal₀)
      (own : journal₀.transactionId = journal.transactionId) : key₀ = key ∧ journal₀ = journal := by
    obtain rfl := ledger.apart key₀ key journal₀ journal _ found stored own rfl
    exact ⟨rfl, Option.some.inj (found.symm.trans stored)⟩
  have written (key₀ : String) (journal₀ : RepositoryTransferJournal)
      (inserted : core'.state.repositoryTransfers =
        core.state.repositoryTransfers.insert key₀ journal₀) : journal' = journal₀ := by
    rw [inserted, lookup_insert_if] at stored'
    split at stored'
    · exact (Option.some.inj stored').symm
    · exact absurd (only key' journal' stored' same).2 changed
  cases write with
  | kept older => exact absurd (only key' journal' (older _ _ stored') same).2 changed
  | @opened key₀ journal₀ fresh below inserted =>
    have new := written key₀ journal₀ inserted
    have old : journal.transactionId < core.uuids := ledger.below _ _ stored
    rw [← same, new] at old
    exact absurd old (Nat.not_lt.mpr fresh)
  | @committed transactionId receipt key₀ journal₀ repo asked commits =>
    have new := written key₀ _ commits.closed
    have own : journal₀.transactionId = journal.transactionId := by
      rw [new] at same
      exact same
    obtain ⟨rfl, rfl⟩ := only key₀ journal₀ commits.stored own
    obtain rfl := commits.transaction
    exact .inl ⟨receipt, repo, asked, commits⟩
  | @failed transactionId reason key₀ journal₀ asked fails =>
    have new := written key₀ (journal₀.failed core.now reason) (by rw [fails.closed])
    have own : journal₀.transactionId = journal.transactionId := by
      rw [new] at same
      exact same
    obtain ⟨rfl, rfl⟩ := only key₀ journal₀ fails.stored own
    obtain rfl := fails.transaction
    exact .inr ⟨reason, asked, fails⟩

/-- A settled transaction is not prepared at any later pool. -/
theorem Pool.ReachableWhen.ended {last : Pool} (reachable : pool.Reachable)
    (run : Run forge (Guarded anyCall) pool last) {key key' : String}
    {journal journal' : RepositoryTransferJournal}
    (stored : pool.shared.state.repositoryTransfers.lookup key = some journal)
    (ended : journal.status ≠ .prepared)
    (stored' : last.shared.state.repositoryTransfers.lookup key' = some journal')
    (same : journal'.transactionId = journal.transactionId) : journal' = journal :=
  (reachable.settles run stored stored' same).settled ended

theorem transfer_at_most_once {pool : Pool} (reachable : pool.Reachable) : TransfersOnce pool where
  settles pool' run key key' journal journal' stored stored' same :=
    reachable.settles run stored stored' same
  settled i call reply pool' writes key key' journal journal' stored stored' same changed :=
    (section_transfers reachable.coherent (reachable.writes writes)).settled
      reachable.transfersApart stored stored' same changed
  commits i transactionId receipt reply pool' writes := reachable.commits_cases writes
  fails i transactionId reason reply pool' writes := reachable.fails_cases writes
  refused i call reply pool' writes asked refusal := by
    rcases asked with ⟨transactionId, receipt, rfl⟩ | ⟨transactionId, reason, rfl⟩
    · rcases reachable.commits_cases writes with ⟨_, _, _, answered, -⟩ | ⟨same, -⟩
      · exact absurd answered (refusal _)
      · exact same
    · rcases reachable.fails_cases writes with ⟨_, _, answered, -⟩ | ⟨same, -⟩
      · exact absurd answered (refusal _)
      · exact same
  repeated last run key journal stored i last' reply := by
    have later := reachable.run run
    constructor
    · intro receipt done writes
      have ended : journal.status ≠ .prepared := by simp [done]
      rcases later.commits_cases writes with ⟨key', journal', repo, -, commits⟩ | ⟨same, replays⟩
      · have settled := reachable.ended run stored ended commits.stored commits.transaction
        exact absurd (settled ▸ commits.prepared) ended
      · refine ⟨same, fun key' journal' stored' own => ?_⟩
        obtain rfl := reachable.ended run stored ended stored' own
        exact replays key' journal' stored' rfl done
    · intro reason failed why writes
      have ended : journal.status ≠ .prepared := by simp [failed]
      rcases later.fails_cases writes with ⟨key', journal', -, fails⟩ | ⟨same, replays⟩
      · have settled := reachable.ended run stored ended fails.stored fails.transaction
        exact absurd (settled ▸ fails.prepared) ended
      · refine ⟨same, fun key' journal' stored' own => ?_⟩
        obtain rfl := reachable.ended run stored ended stored' own
        exact replays key' journal' stored' rfl failed why

end Once

section Demo

/-- A transfer of the demo repository, prepared, then committed while a second one of it is
    prepared too. -/
def prepareMove (owner key : String) : Call :=
  .prepareRepositoryTransfer
    { repositoryId := 0, expectedSourceOwner := "acme", expectedSourceName := "demo"
      destinationOwner := owner, requestFingerprint := owner, idempotencyKey := key }

def transferTwice : List (Turn Call) :=
  [.alone .newDemo, .alone (prepareMove "bravo" "first"),
    .alone (prepareMove "delta" "second"), .alone (.commitRepositoryTransfer 1 (.object [])), .enter (.commitRepositoryTransfer 1 (.object []))]

theorem transfer_demo : TransfersOnce (ForgeCore.durable.played transferTwice) :=
  transfer_at_most_once (played_any rfl (by decide))

end Demo

end Jeryu.Core
