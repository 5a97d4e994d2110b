import Jeryu.Auth.Readings
import Jeryu.Core.Runs

/-!
Password recovery over runs: a secret sets one password, for the account it was issued to as that
account was then, and nothing else of a refused recovery is seen.
-/

namespace Jeryu.Auth

open Jeryu.Core KeyedMap LockProgram

section Rows

variable {s s' : State} {id key : Secret} {login : String} {now : DateTime}

/-- The record of a secret that has not been spent or retired. -/
def unspentAt (id : Secret) (s : State) : Option PasswordRecoveryRecord :=
  (s.auth.passwordRecoveries.lookup id).filter fun record => record.consumedAt.isNone

theorem Within.unspentAt {tables : List Table} (within : Within tables s s')
    (outside : Table.recoveries ∉ tables) : unspentAt id s' = unspentAt id s := by
  have same : s'.auth.passwordRecoveries = s.auth.passwordRecoveries := within .recoveries outside
  unfold Auth.unspentAt
  rw [same]

theorem unspentAt_prune : unspentAt id (s.pruneDeadRecoveries now) =
    (unspentAt id s).filter fun record => record.isLive now := by
  unfold unspentAt State.pruneDeadRecoveries State.withRecoveries
  dsimp only
  rw [HashMap.lookup_retain, Option.filter_filter, Option.filter_filter]
  simp only [Bool.and_comm]

theorem unspentAt_retire : unspentAt id (s.retireLiveSecrets login now) =
    (unspentAt id s).filter fun record => record.login ≠ login := by
  unfold unspentAt State.retireLiveSecrets State.withRecoveries
  dsimp only
  rw [HashMap.lookup_mapValues]
  cases s.auth.passwordRecoveries.lookup id with
  | none => rfl
  | some record =>
    cases unspent : record.consumedAt with
    | some spent => simp [Option.filter_some, unspent]
    | none =>
      by_cases same : record.login = login
      · simp [Option.filter_some, unspent, same]
      · simp [Option.filter_some, unspent, same]

theorem unspentAt_insert {record : PasswordRecoveryRecord} (unspent : record.consumedAt = none) :
    unspentAt id (s.withRecoveries fun rows => rows.insert key record) =
      if id = key then some record else unspentAt id s := by
  unfold unspentAt State.withRecoveries
  dsimp only
  rw [HashMap.lookup_insert_if]
  by_cases same : id = key
  · simp [same, Option.filter_some, unspent]
  · simp [same]

/-- The unspent records once the live secrets of a login have been retired. -/
theorem unspentAt_retired {record : PasswordRecoveryRecord}
    (left : unspentAt id ((s.retireLiveSecrets login now).pruneDeadRecoveries now) = some record) :
    unspentAt id s = some record ∧ record.login ≠ login := by
  rw [unspentAt_prune, unspentAt_retire] at left
  have retired := (Option.filter_eq_some_iff.mp left).1
  exact ⟨(Option.filter_eq_some_iff.mp retired).1, by simpa using (Option.filter_eq_some_iff.mp retired).2⟩

/-- Every record that is left was there. -/
def Narrows (s s' : State) : Prop :=
  ∀ id record, unspentAt id s' = some record → unspentAt id s = some record

theorem Narrows.cases (narrows : Narrows s s') (id : Secret) :
    unspentAt id s' = unspentAt id s ∨ unspentAt id s' = none := by
  cases left : unspentAt id s' with
  | none => exact .inr rfl
  | some record => exact .inl (narrows id record left).symm

theorem prune_narrows : Narrows s (s.pruneDeadRecoveries now) := by
  intro id record left
  rw [unspentAt_prune] at left
  exact (Option.filter_eq_some_iff.mp left).1

theorem retire_narrows : Narrows s ((s.retireLiveSecrets login now).pruneDeadRecoveries now) :=
  fun _ _ left => (unspentAt_retired left).1

end Rows

section Ends

variable {core : ForgeCore} {login : String} {tokenId secret : Secret} {now : DateTime}

/-- The record an issue stores. -/
def issuedRecord (login : String) (account : UserAccount) (token tokenId : Secret) (now : DateTime) :
    PasswordRecoveryRecord :=
  { tokenId, login, secretHash := tokenHash token, authEpoch := account.authEpoch
    createdAt := now, expiresAt := now + 60 * minute, consumedAt := none, attemptCount := 0 }

/-- The state an issue leaves. -/
def issuedState (core : ForgeCore) (login : String) (account : UserAccount) (now : DateTime) : State :=
  ((core.state.pruneDeadRecoveries now).retireLiveSecrets login now).pruneDeadRecoveries now
    |>.withRecoveries fun rows =>
      rows.insert (core.uuids + 1) (issuedRecord login account core.uuids (core.uuids + 1) now)

/-- The ways an issue ends. -/
inductive IssueEnds (core : ForgeCore) (login : String) (now : DateTime) :
    Core.Outcome (Except Failure PasswordRecoveryIssued) → Prop where
  | denied (receipt : Option AuditEntry) : IssueEnds core login now
      (.commit [] 0 (core.state.pruneDeadRecoveries now) receipt (.error recoveryError))
  | issued (account : UserAccount) (receipt : Option AuditEntry)
      (found : core.state.accounts.lookup login = some account)
      (permits : account.status.permitsAuthentication = true) : IssueEnds core login now
        (.commit [] 2 (issuedState core login account now) receipt
          (.ok ⟨login, core.uuids + 1, core.uuids, now + 60 * minute⟩))

theorem issuePasswordRecoveryLocked_cases :
    IssueEnds core login now (issuePasswordRecoveryLocked login now core) := by
  unfold issuePasswordRecoveryLocked
  dsimp only
  cases found : (core.state.accounts.lookup login).filter
      fun account => account.status.permitsAuthentication with
  | none => exact .denied _
  | some account =>
    obtain ⟨stored, permits⟩ := Option.filter_eq_some_iff.mp found
    exact .issued account _ stored permits

/-- An epoch that cannot move. -/
def epochOverflow : Failure := .error (.storage "account auth epoch overflow")

theorem epochMoved_error {s spoiled : State} {edited : UserAccount} {error : ForgeError}
    (failed : s.epochMoved login edited now = .error (error, spoiled)) :
    Failure.error error = epochOverflow := by
  unfold State.epochMoved nextAuthEpoch at failed
  by_cases bounded : edited.authEpoch + 1 < 2 ^ 64
  · rw [if_pos bounded] at failed
    cases failed
  · rw [if_neg bounded] at failed
    cases failed
    rfl

/-- A secret that is spent: live as of the reading, right, and of an account that is as it was when
    the secret was issued. -/
structure Spendable (s : State) (tokenId secret : Secret) (now : DateTime)
    (record : PasswordRecoveryRecord) (account : UserAccount) : Prop where
  found : unspentAt tokenId s = some record
  young : now < record.expiresAt
  few : record.attemptCount < 5
  right : tokenHash secret = record.secretHash
  known : s.accounts.lookup record.login = some account
  permits : account.status.permitsAuthentication = true
  epoch : account.authEpoch = record.authEpoch

theorem verifySpend_spendable {s : State} {verified : VerifiedSpend}
    (verifies : s.verifySpend tokenId secret now = .ok verified) :
    ∃ record account, Spendable s tokenId secret now record account ∧
      verified = ⟨record.login, record.authEpoch⟩ := by
  obtain ⟨record, account, stored, live, right, known, permits, epoch, rfl⟩ := verifySpend_ok verifies
  simp only [PasswordRecoveryRecord.isLive, Bool.and_eq_true, decide_eq_true_eq] at live
  have unspent : unspentAt tokenId s = some record :=
    Option.filter_eq_some_iff.mpr ⟨stored, live.1.1⟩
  exact ⟨record, account, ⟨unspent, live.1.2, live.2, right, known, permits, epoch⟩, rfl⟩

/-- The ways the last section of a recovery ends. -/
inductive SpendEnds (core : ForgeCore) (tokenId secret : Secret) (now : DateTime) :
    Core.Outcome (Except Failure PasswordRecoveryReceipt) → Prop where
  | refused (failure : Failure) : SpendEnds core tokenId secret now (.unchanged (.error failure))
  | exhausted (spoiled : State) (narrows : Narrows core.state spoiled) :
      SpendEnds core tokenId secret now (.direct [] spoiled (.error epochOverflow))
  | spent {record : PasswordRecoveryRecord} {account : UserAccount}
      (spendable : Spendable core.state tokenId secret now record account) (updated : UserAccount)
      (receipt : Option AuditEntry) (value : PasswordRecoveryReceipt) :
      SpendEnds core tokenId secret now
        (.commit [] 0 (fenced ((core.state.retireLiveSecrets record.login now).pruneDeadRecoveries now)
          record.login updated now) receipt (.ok value))

theorem recoverPasswordLocked_cases {checked : VerifiedSpend} {passwordHash : String} :
    SpendEnds core tokenId secret now
      (recoverPasswordLocked tokenId secret checked passwordHash now core) := by
  unfold recoverPasswordLocked
  cases verifies : core.state.verifySpend tokenId secret now with
  | error refusal => exact .refused _
  | ok verified =>
    obtain ⟨record, account, spendable, rfl⟩ := verifySpend_spendable verifies
    dsimp only
    split
    · exact .refused _
    · rw [spendable.known]
      dsimp only
      have ends := @epochMoved_ends record.login
        ((core.state.retireLiveSecrets record.login now).pruneDeadRecoveries now)
        { account with passwordHash, mustChangePassword := false } now
      rcases moved : ((core.state.retireLiveSecrets record.login now).pruneDeadRecoveries now).epochMoved
        record.login { account with passwordHash, mustChangePassword := false } now with
        ⟨error, spoiled⟩ | ⟨updated, next⟩
      · rw [moved] at ends
        have overflow := epochMoved_error moved
        dsimp only
        rw [overflow]
        refine .exhausted spoiled fun id row left => ?_
        have same : unspentAt id spoiled = unspentAt id
            ((core.state.retireLiveSecrets record.login now).pruneDeadRecoveries now) :=
          ends.within.unspentAt (by decide)
        exact retire_narrows id row (same ▸ left)
      · rw [moved] at ends
        dsimp only at ends ⊢
        generalize kept : (Except.ok updated.summary : Except Failure AccountSummary) = answer at ends
        cases ends with
        | spoiled failure => cases kept
        | moved epoch same => exact .spent spendable _ _ _

end Ends

section Moves

variable {core core' : ForgeCore} {since : DateTime} {id tokenId secret : Secret} {login : String}

/-- What a section does to the unspent record of one secret. -/
inductive RecoveryMoves (id : Secret) (core core' : ForgeCore) :
    (call : Call) → Option call.Reply → Prop where
  | stays {call reply} (same : unspentAt id core'.state = unspentAt id core.state) :
      RecoveryMoves id core core' call reply
  | ended {call reply} (gone : unspentAt id core'.state = none) : RecoveryMoves id core core' call reply
  | issued {login random issued} (fresh : core.uuids ≤ id) (drawn : id < core'.uuids) :
      RecoveryMoves id core core' (.issuePasswordRecovery login random) (some (.ok issued))
  | counted {secret newPassword salt reply record} (found : unspentAt id core.state = some record)
      (wrong : tokenHash secret ≠ record.secretHash)
      (stored : unspentAt id core'.state =
        some { record with attemptCount := record.attemptCount + 1 }) :
      RecoveryMoves id core core' (.recoverPassword (some (id, secret)) newPassword salt) reply

theorem Narrows.moves (narrows : Narrows core.state core'.state) {call : Call}
    {reply : Option call.Reply} : RecoveryMoves id core core' call reply :=
  (narrows.cases id).elim .stays .ended

theorem checkRecovery_moves {newPassword : String} {salt : Except ForgeError String}
    {reply : Option (Call.Reply (.recoverPassword (some (tokenId, secret)) newPassword salt))} :
    RecoveryMoves id core ((checkRecoveryLocked tokenId secret core).leaves core)
      (.recoverPassword (some (tokenId, secret)) newPassword salt) reply := by
  rcases checkRecoveryLocked_ends.settled core with ⟨same, -⟩ | ⟨draws, value, made, -, -⟩
  · exact .stays (by rw [same])
  · obtain ⟨-, -, record, stored, live, wrong, next⟩ := made
    simp only [PasswordRecoveryRecord.isLive, Bool.and_eq_true, Option.isNone_iff_eq_none] at live
    have unspent : unspentAt tokenId core.state = some record :=
      Option.filter_eq_some_iff.mpr ⟨stored, by rw [live.1.1]; rfl⟩
    have counted : unspentAt id ((checkRecoveryLocked tokenId secret core).leaves core).state =
        if id = tokenId then some { record with attemptCount := record.attemptCount + 1 }
        else unspentAt id core.state := by
      rw [next]
      exact unspentAt_insert live.1.1
    by_cases same : id = tokenId
    · subst same
      rw [if_pos rfl] at counted
      exact .counted unspent wrong counted
    · rw [if_neg same] at counted
      exact .stays counted

/-- What a secret leaves unspent once another is spent. -/
theorem fenced_narrows {s : State} {updated : UserAccount} {now : DateTime} :
    Narrows s (fenced ((s.retireLiveSecrets login now).pruneDeadRecoveries now) login updated now) := by
  intro id record left
  have same : unspentAt id (fenced ((s.retireLiveSecrets login now).pruneDeadRecoveries now) login
      updated now) = unspentAt id ((s.retireLiveSecrets login now).pruneDeadRecoveries now) :=
    fenced_within.unspentAt (by decide)
  exact retire_narrows id record (same ▸ left)

/-- A secret that is spent, and the rest of its login's, are gone. -/
theorem fenced_spent {s : State} {updated : UserAccount} {now : DateTime}
    {record : PasswordRecoveryRecord} (found : unspentAt id s = some record) :
    unspentAt id (fenced ((s.retireLiveSecrets record.login now).pruneDeadRecoveries now) record.login
      updated now) = none := by
  have same : unspentAt id (fenced ((s.retireLiveSecrets record.login now).pruneDeadRecoveries now)
      record.login updated now) =
        unspentAt id ((s.retireLiveSecrets record.login now).pruneDeadRecoveries now) :=
    fenced_within.unspentAt (by decide)
  rw [same]
  cases left : unspentAt id ((s.retireLiveSecrets record.login now).pruneDeadRecoveries now) with
  | none => rfl
  | some other =>
    obtain ⟨stored, differs⟩ := unspentAt_retired left
    cases found.symm.trans stored
    exact absurd rfl differs

theorem recoverPassword_narrows {checked : VerifiedSpend} {passwordHash : String} {now : DateTime} :
    Narrows core.state
      ((recoverPasswordLocked tokenId secret checked passwordHash now core).leaves core).state := by
  have ends := @recoverPasswordLocked_cases core tokenId secret now checked passwordHash
  generalize recoverPasswordLocked tokenId secret checked passwordHash now core = outcome at ends
  cases ends with
  | refused failure => exact fun _ _ left => left
  | exhausted spoiled narrows => exact narrows
  | spent spendable updated receipt value =>
    rcases commit_ends core [] 0 _ receipt (Except.ok value : Except Failure PasswordRecoveryReceipt) with
      ⟨error, -, kept, -⟩ | ⟨stored, -, -⟩
    · rw [kept]
      exact fun _ _ left => left
    · rw [stored]
      exact fenced_narrows

/-- The unspent records an issue leaves: the new one, and those of other logins. -/
theorem issuedState_cases {account : UserAccount} {now : DateTime} {record : PasswordRecoveryRecord}
    (left : unspentAt id (issuedState core login account now) = some record) :
    id = core.uuids + 1 ∧ record = issuedRecord login account core.uuids (core.uuids + 1) now ∨
      unspentAt id core.state = some record ∧ record.login ≠ login := by
  unfold issuedState at left
  rw [unspentAt_insert rfl] at left
  by_cases same : id = core.uuids + 1
  · rw [if_pos same] at left
    exact .inl ⟨same, (Option.some.inj left).symm⟩
  · rw [if_neg same] at left
    obtain ⟨pruned, other⟩ := unspentAt_retired left
    exact .inr ⟨prune_narrows id record pruned, other⟩

theorem issuePasswordRecovery_moves {random : Except ForgeError Unit} {now : DateTime}
    {answer : Except Failure PasswordRecoveryIssued}
    (ended : Outcome.ends (issuePasswordRecoveryLocked login now core) core = answer) :
    RecoveryMoves id core ((issuePasswordRecoveryLocked login now core).leaves core)
      (.issuePasswordRecovery login random) (some answer) := by
  have ends := @issuePasswordRecoveryLocked_cases core login now
  generalize issuePasswordRecoveryLocked login now core = outcome at ends ended
  unfold Outcome.ends at ended
  cases ends with
  | denied receipt =>
    rcases commit_ends core [] 0 (core.state.pruneDeadRecoveries now) receipt
      (Except.error recoveryError : Except Failure PasswordRecoveryIssued) with
      ⟨error, -, kept, -⟩ | ⟨stored, -, -⟩
    · exact .stays (by rw [kept])
    · refine Narrows.moves ?_
      rw [stored]
      exact prune_narrows
  | issued account receipt found permits =>
    rcases commit_ends core [] 2 (issuedState core login account now) receipt
      (Except.ok ⟨login, core.uuids + 1, core.uuids, now + 60 * minute⟩ :
        Except Failure PasswordRecoveryIssued) with ⟨error, -, kept, -⟩ | ⟨stored, drawn, answered⟩
    · exact .stays (by rw [kept])
    · rw [answered] at ended
      subst ended
      by_cases same : id = core.uuids + 1
      · subst same
        exact .issued (Nat.le_succ _) (drawn ▸ Nat.lt_succ_self _)
      · cases left : unspentAt id (issuedState core login account now) with
        | none => exact .ended (by rw [stored, left])
        | some record =>
          rcases issuedState_cases left with ⟨here, -⟩ | ⟨before, -⟩
          · exact absurd here same
          · exact .stays (by rw [stored, left, before])

theorem Call.untimed_recoveries {call : Call} (quiet : call.timed = false) :
    Table.recoveries ∉ call.tables := by
  cases call <;> first | (simp [Call.tables, credentialTables]; done) | simp [Call.timed] at quiet

/-- The unspent record of one secret changes in three ways only. -/
theorem Timely.recoveryMoves {call : Call} {reply : Option call.Reply}
    (moved : Timely since call core core' reply) (id : Secret) :
    RecoveryMoves id core core' call reply := by
  have within := moved.within
  cases moved with
  | untimed quiet moved => exact .stays (within.unspentAt (Call.untimed_recoveries quiet))
  | receipt audited same drawn clock => exact .stays (by rw [same])
  | issuePasswordRecovery now after behind => exact issuePasswordRecovery_moves rfl
  | checkRecovery unanswered => exact checkRecovery_moves
  | recoverPassword checked passwordHash now after behind => exact recoverPassword_narrows.moves
  | _ => exact .stays (within.unspentAt (by simp [Call.tables]))

end Moves

section Calls

variable {core core' : ForgeCore} {since : DateTime} {tokenId secret : Secret} {login newPassword : String}
variable {salt : Except ForgeError String} {random : Except ForgeError Unit}

/-- A section of a recovery looks at the secret, or is the last. -/
theorem Timely.recovers
    {reply : Option (Call.Reply (.recoverPassword (some (tokenId, secret)) newPassword salt))}
    (moved : Timely since (.recoverPassword (some (tokenId, secret)) newPassword salt) core core'
      reply) :
    (core' = (checkRecoveryLocked tokenId secret core).leaves core ∧
      ∀ receipt, reply ≠ some (.ok receipt)) ∨
    ∃ now outcome, since ≤ now ∧ now ≤ core.now ∧ SpendEnds core tokenId secret now outcome ∧
      core' = outcome.leaves core ∧ reply = some (Outcome.ends outcome core) := by
  cases moved with
  | untimed quiet moved => cases quiet
  | receipt audited same drawn clock => cases audited
  | checkRecovery unanswered => exact .inl ⟨rfl, unanswered⟩
  | recoverPassword checked passwordHash now after behind =>
    exact .inr ⟨now, _, after, behind, recoverPasswordLocked_cases, rfl, rfl⟩

/-- A recovery that is answered well has spent a secret that could be. -/
theorem Timely.spends {receipt : PasswordRecoveryReceipt}
    (moved : Timely since (.recoverPassword (some (tokenId, secret)) newPassword salt) core core'
      (some (.ok receipt))) :
    ∃ record account now, since ≤ now ∧ now ≤ core.now ∧
      Spendable core.state tokenId secret now record account ∧ unspentAt tokenId core'.state = none := by
  rcases moved.recovers with ⟨-, unanswered⟩ | ⟨now, outcome, after, behind, ends, rfl, replied⟩
  · exact absurd rfl (unanswered receipt)
  · have answered := (Option.some.inj replied).symm
    unfold Outcome.ends at answered
    cases ends with
    | refused failure => cases answered
    | exhausted spoiled narrows => cases answered
    | @spent record account spendable updated receipt' value =>
      rcases commit_ends core [] 0 _ receipt' (Except.ok value : Except Failure PasswordRecoveryReceipt) with
        ⟨error, -, -, failed⟩ | ⟨stored, -, -⟩
      · rw [failed] at answered
        cases answered
      · rw [stored]
        exact ⟨record, account, now, after, behind, spendable, fenced_spent spendable.found⟩

/-- A recovery that is refused changes no account, and no credential but its own. -/
theorem Timely.refused
    {reply : Option (Call.Reply (.recoverPassword (some (tokenId, secret)) newPassword salt))}
    (moved : Timely since (.recoverPassword (some (tokenId, secret)) newPassword salt) core core' reply)
    (refused : ∀ receipt, reply ≠ some (.ok receipt))
    (bounded : reply ≠ some (.error epochOverflow)) : Within [.recoveries] core.state core'.state := by
  rcases moved.recovers with ⟨rfl, -⟩ | ⟨now, outcome, -, -, ends, rfl, rfl⟩
  · exact checkRecovery_within
  · cases ends with
    | refused failure => exact within_refl
    | exhausted spoiled narrows => exact absurd rfl bounded
    | spent spendable updated receipt' value =>
      rcases commit_ends core [] 0 _ receipt' (Except.ok value : Except Failure PasswordRecoveryReceipt) with
        ⟨error, -, kept, -⟩ | ⟨-, -, answered⟩
      · rw [kept]
        exact within_refl
      · exact absurd (congrArg (fun answer => some (answer.bind id)) answered) (refused value)

/-- An issue answers as its one section ends. -/
theorem Timely.issuing {reply : Option (Call.Reply (.issuePasswordRecovery login random))}
    (moved : Timely since (.issuePasswordRecovery login random) core core' reply) :
    ∃ now outcome, since ≤ now ∧ now ≤ core.now ∧ IssueEnds core login now outcome ∧
      core' = outcome.leaves core ∧ reply = some (Outcome.ends outcome core) := by
  cases moved with
  | untimed quiet moved => cases quiet
  | receipt audited same drawn clock => cases audited
  | issuePasswordRecovery now after behind =>
    exact ⟨now, _, after, behind, issuePasswordRecoveryLocked_cases, rfl, rfl⟩

/-- What an issue that is answered well has found and left. -/
theorem Timely.issues {issued : PasswordRecoveryIssued}
    (moved : Timely since (.issuePasswordRecovery login random) core core' (some (.ok issued))) :
    ∃ account now, since ≤ now ∧ now ≤ core.now ∧ core.state.accounts.lookup login = some account ∧
      account.status.permitsAuthentication = true ∧
      issued = ⟨login, core.uuids + 1, core.uuids, now + 60 * minute⟩ ∧
      core'.state = issuedState core login account now ∧ core'.uuids = core.uuids + 2 := by
  obtain ⟨now, outcome, after, behind, ends, rfl, replied⟩ := moved.issuing
  have answered := (Option.some.inj replied).symm
  unfold Outcome.ends at answered
  cases ends with
  | denied receipt =>
    rcases commit_ends core [] 0 (core.state.pruneDeadRecoveries now) receipt
      (Except.error recoveryError : Except Failure PasswordRecoveryIssued) with
      ⟨error, -, -, failed⟩ | ⟨-, -, denied⟩
    · rw [failed] at answered
      cases answered
    · rw [denied] at answered
      cases answered
  | issued account receipt found permits =>
    rcases commit_ends core [] 2 (issuedState core login account now) receipt
      (Except.ok ⟨login, core.uuids + 1, core.uuids, now + 60 * minute⟩ :
        Except Failure PasswordRecoveryIssued) with ⟨error, -, -, failed⟩ | ⟨stored, drawn, granted⟩
    · rw [failed] at answered
      cases answered
    · rw [granted] at answered
      exact ⟨account, now, after, behind, found, permits, (Except.ok.inj answered).symm, stored, drawn⟩

end Calls

section Single

variable {pool pool' : Pool}

/-- Every unspent record was there, of the same login. -/
def Continues (s s' : State) : Prop := ∀ id record', unspentAt id s' = some record' →
  ∃ record, unspentAt id s = some record ∧ record.login = record'.login

theorem Narrows.continues {s s' : State} (narrows : Narrows s s') : Continues s s' :=
  fun id record left => ⟨record, narrows id record left, rfl⟩

end Single

section Runs

variable {pool pool' created created' : Pool} {id tokenId secret : Secret} {login : String}

/-- A recovery sets a password. -/
def Sets (tokenId secret : Secret) (pool pool' : Pool) : Prop :=
  ∃ i newPassword salt receipt,
    pool.Writes i (.recoverPassword (some (tokenId, secret)) newPassword salt) (some (.ok receipt)) pool'

/-- A wrong secret is counted against the id it names. -/
def CountsWrong (tokenId : Secret) (pool pool' : Pool) : Prop :=
  ∃ i secret newPassword salt reply record,
    pool.Writes i (.recoverPassword (some (tokenId, secret)) newPassword salt) reply pool' ∧
    unspentAt tokenId pool.shared.state = some record ∧ tokenHash secret ≠ record.secretHash ∧
    unspentAt tokenId pool'.shared.state =
      some { record with attemptCount := record.attemptCount + 1 }

/-- A run in which so many wrong secrets are counted against an id. -/
inductive Strikes (tokenId : Secret) : Nat → Pool → Pool → Prop where
  | start {pool : Pool} : Strikes tokenId 0 pool pool
  | step {n : Nat} {pool pool' last : Pool} (strikes : Strikes tokenId n pool pool')
      (step : Step (accounts forward) anySection pool' last) : Strikes tokenId n pool last
  | strike {n : Nat} {pool pool' last : Pool} (strikes : Strikes tokenId n pool pool')
      (counted : CountsWrong tokenId pool' last) : Strikes tokenId (n + 1) pool last

theorem Strikes.run {n : Nat} (strikes : Strikes tokenId n pool pool') : ForwardRuns pool pool' := by
  induction strikes with
  | start => exact .refl
  | step _ step ih => exact ih.tail step
  | strike _ counted ih =>
    obtain ⟨i, secret, newPassword, salt, reply, record, writes, -⟩ := counted
    exact ih.tail (writes.step fun _ => True.intro)

/-- The unspent record of an id that was drawn: a step leaves it, ends it or counts against it. -/
theorem drawn_step (reachable : pool.ForwardReachable)
    (step : Step (accounts forward) anySection pool pool') (drawn : id < pool.shared.uuids) :
    id < pool'.shared.uuids ∧ (unspentAt id pool'.shared.state = unspentAt id pool.shared.state ∨
      unspentAt id pool'.shared.state = none ∨ CountsWrong id pool pool') := by
  cases accounts_paced.moved step reachable.onPace with
  | stays same =>
    rw [same]
    exact ⟨drawn, .inl rfl⟩
  | ambient moved =>
    have same : pool'.shared.state.auth.passwordRecoveries =
        pool.shared.state.auth.passwordRecoveries := congrArg (·.passwordRecoveries) moved.auth
    refine ⟨drawn.trans_le moved.uuids, .inl ?_⟩
    unfold unspentAt
    rw [same]
  | writes i call reply writes allowed keeps =>
    obtain ⟨since, timely⟩ := keeps
    refine ⟨drawn.trans_le timely.uuids, ?_⟩
    have moves := timely.recoveryMoves id
    cases moves with
    | stays same => exact .inl same
    | ended gone => exact .inr (.inl gone)
    | issued fresh => exact absurd drawn (not_lt.mpr fresh)
    | counted found wrong stored => exact .inr (.inr ⟨i, _, _, _, _, _, writes, found, wrong, stored⟩)

/-- What holds of the record of an id that was drawn, whatever is counted, goes on to hold. -/
theorem drawn_run {P : PasswordRecoveryRecord → Prop}
    (counts : ∀ record, P record → P { record with attemptCount := record.attemptCount + 1 })
    (reachable : pool.ForwardReachable) (run : ForwardRuns pool pool') (drawn : id < pool.shared.uuids)
    (holds : ∀ record, unspentAt id pool.shared.state = some record → P record) :
    id < pool'.shared.uuids ∧ ∀ record, unspentAt id pool'.shared.state = some record → P record := by
  induction run with
  | refl => exact ⟨drawn, holds⟩
  | tail before step ih =>
    obtain ⟨here, kept⟩ := ih
    obtain ⟨later, moves⟩ := drawn_step (reachable.step before) step here
    refine ⟨later, fun record found => ?_⟩
    rcases moves with same | gone | ⟨i, secret, newPassword, salt, reply, past, -, found', -, stored⟩
    · exact kept record (same.symm.trans found)
    · rw [gone] at found
      cases found
    · cases stored.symm.trans found
      exact counts past (kept past found')

/-- Every strike is on the record. -/
theorem Strikes.counted {n : Nat} (strikes : Strikes tokenId n pool pool')
    (reachable : pool.ForwardReachable) (drawn : tokenId < pool.shared.uuids) :
    tokenId < pool'.shared.uuids ∧ ∀ record, unspentAt tokenId pool'.shared.state = some record →
      n ≤ record.attemptCount := by
  induction strikes with
  | start => exact ⟨drawn, fun _ _ => Nat.zero_le _⟩
  | step strikes step ih =>
    obtain ⟨here, kept⟩ := ih reachable drawn
    exact drawn_run (fun record few => few.trans (Nat.le_succ _)) (reachable.step strikes.run)
      (.single step) here kept
  | strike strikes counted ih =>
    obtain ⟨here, kept⟩ := ih reachable drawn
    obtain ⟨i, secret, newPassword, salt, reply, record, writes, found, -, stored⟩ := counted
    have step : Step (accounts forward) anySection _ _ := writes.step fun _ => True.intro
    refine ⟨(drawn_step (reachable.step strikes.run) step here).1, fun record' found' => ?_⟩
    cases stored.symm.trans found'
    exact Nat.succ_le_succ (kept record found)

theorem Sets.spends {pool pool' : Pool} (reachable : pool.ForwardReachable)
    (sets : Sets tokenId secret pool pool') : ∃ record account now,
      Spendable pool.shared.state tokenId secret now record account ∧
        unspentAt tokenId pool'.shared.state = none := by
  obtain ⟨i, newPassword, salt, receipt, writes⟩ := sets
  obtain ⟨since, timely⟩ := reachable.onPace.writes ahead_refl writes
  obtain ⟨record, account, now, -, -, spendable, gone⟩ := timely.spends
  exact ⟨record, account, now, spendable, gone⟩

end Runs

section Demo

def issueAda : Call := .issuePasswordRecovery "ada" (.ok ())

/-- A recovery of `ada`'s with the secret that is presented. -/
def recoverAda (secret : Secret) : Call :=
  .recoverPassword (some (2, secret)) "correct horse battery" (.ok "salt")

/-- `ada` has asked for a secret. -/
def issuing : Pool :=
  Config.play (accounts forward) ⟨.durable, []⟩
    [.alone (.createAccount "ada" "correct horse" .user (.ok "$argon2id$salt$correct horse")),
      .enter issueAda, .advance 1]

def issuedAda : Pool := issuing.turn (accounts forward) (.advance 1)

/-- The secret has been looked at and the clock read, and the hour goes by. -/
def waiting : Pool :=
  waited (Config.play (accounts forward) issuedAda [.enter (recoverAda 1), .advance 2, .advance 2])
    (61 * minute)

/-- The pool with another storage. -/
def stored (pool : Pool) (storage : Option SqliteStore) : Pool :=
  ⟨{ pool.shared with storage }, pool.tasks⟩

/-- A storage that is full. -/
def full : SqliteStore :=
  { journal := [], transaction := fun _ => .error (.storage "database or disk is full")
    dropTables := .ok ()
    append := fun _ => .error (.storage "database or disk is full")
    appendDeployment := fun _ => .error (.storage "database or disk is full") }

end Demo

end Jeryu.Auth
