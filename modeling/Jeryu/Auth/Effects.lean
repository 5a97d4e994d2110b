import Jeryu.Auth.Tables

namespace Jeryu.Auth

open Jeryu.Core KeyedMap

section Tables

variable {s : State}

/-- Every table but one is the same. -/
theorem within_only {s' : State} (t : Table) (others : ∀ t', t' ≠ t → t'.Same s s') :
    Within [t] s s' := fun t' outside => others t' (by simpa using outside)

theorem within_users (users : HashMap String User) : Within [.users] s { s with users } :=
  within_only .users fun t' other => by
    cases t' <;> first | rfl | exact ⟨rfl, rfl, rfl⟩ | exact absurd rfl other

theorem within_accounts (accounts : HashMap String UserAccount) :
    Within [.accounts] s { s with accounts } :=
  within_only .accounts fun t' other => by
    cases t' <;> first | rfl | exact ⟨rfl, rfl, rfl⟩ | exact absurd rfl other

theorem within_organizations (organizations : HashMap String Organization) :
    Within [.organizations] s { s with organizations } :=
  within_only .organizations fun t' other => by
    cases t' <;> first | rfl | exact ⟨rfl, rfl, rfl⟩ | exact absurd rfl other

theorem within_bots (bots : HashMap Uuid BotRecord) : Within [.bots] s { s with bots } :=
  within_only .bots fun t' other => by
    cases t' <;> first | rfl | exact ⟨rfl, rfl, rfl⟩ | exact absurd rfl other

theorem within_sessions (sessions : HashMap Digest WebSession) :
    Within [.sessions] s { s with auth := { s.auth with sessions } } :=
  within_only .sessions fun t' other => by
    cases t' <;> first | rfl | exact ⟨rfl, rfl, rfl⟩ | exact absurd rfl other

theorem within_personalTokens (personalTokens : HashMap Uuid PersonalAccessToken) :
    Within [.personalTokens] s { s with auth := { s.auth with personalTokens } } :=
  within_only .personalTokens fun t' other => by
    cases t' <;> first | rfl | exact ⟨rfl, rfl, rfl⟩ | exact absurd rfl other

theorem within_recoveries (passwordRecoveries : HashMap Secret PasswordRecoveryRecord) :
    Within [.recoveries] s { s with auth := { s.auth with passwordRecoveries } } :=
  within_only .recoveries fun t' other => by
    cases t' <;> first | rfl | exact ⟨rfl, rfl, rfl⟩ | exact absurd rfl other

theorem within_botKeys (botKeys : HashMap Secret BotKeyRecord) :
    Within [.botKeys] s { s with auth := { s.auth with botKeys } } :=
  within_only .botKeys fun t' other => by
    cases t' <;> first | rfl | exact ⟨rfl, rfl, rfl⟩ | exact absurd rfl other

theorem within_botRefresh (botRefresh : HashMap Digest BotRefreshRecord) :
    Within [.botRefresh] s { s with auth := { s.auth with botRefresh } } :=
  within_only .botRefresh fun t' other => by
    cases t' <;> first | rfl | exact ⟨rfl, rfl, rfl⟩ | exact absurd rfl other

theorem within_botAccessTokens (botAccessTokens : HashMap Digest BotAccessTokenRecord) :
    Within [.botAccessTokens] s { s with auth := { s.auth with botAccessTokens } } :=
  within_only .botAccessTokens fun t' other => by
    cases t' <;> first | rfl | exact ⟨rfl, rfl, rfl⟩ | exact absurd rfl other

theorem within_botOperations (botOperations : HashMap (Uuid × String × RequestKey) BotOperationRecord) :
    Within [.botOperations] s { s with auth := { s.auth with botOperations } } :=
  within_only .botOperations fun t' other => by
    cases t' <;> first | rfl | exact ⟨rfl, rfl, rfl⟩ | exact absurd rfl other

theorem within_teams (teams : HashMap (String × String) Team) :
    Within [.teams] s { s with auth := { s.auth with teams } } :=
  within_only .teams fun t' other => by
    cases t' <;> first | rfl | exact ⟨rfl, rfl, rfl⟩ | exact absurd rfl other

end Tables

section Accounts

variable {core : ForgeCore} {login : String}

theorem createUserLocked_ends {request : CreateUserRequest} :
    Outcome.Ends (fun _ next _ => core.state.users.lookup request.login = none ∧ ∃ user : User,
      next = { core.state with users := core.state.users.insert request.login user })
      (createUserLocked request core) := by
  unfold createUserLocked
  split
  · exact True.intro
  · next absent => exact ⟨by simpa using absent, _, rfl⟩

theorem createAccountLocked_ends {role : UserRole} {hash : Except ForgeError String} :
    Outcome.Ends (fun _ next _ => core.state.accounts.lookup login = none ∧
      core.state.organizations.lookup login = none ∧ ∃ (account : UserAccount) (user : User),
        account.canonicalLogin = login ∧ account.role = role ∧ account.authEpoch = 0 ∧ next =
          { core.state with
            users := if (core.state.users.lookup login).isSome then core.state.users
              else core.state.users.insert login user
            accounts := core.state.accounts.insert login account })
      (createAccountLocked login role hash core) := by
  unfold createAccountLocked
  refine ends_ite (fun _ => True.intro) fun free => ?_
  simp only [Bool.or_eq_true, not_or, Option.not_isSome_iff_eq_none] at free
  cases hash with
  | error error => exact True.intro
  | ok passwordHash => exact ⟨free.1, free.2, _, _, rfl, rfl, rfl, rfl⟩

/-- The state once the epoch of an account has moved: its credentials go with it. -/
def fenced (s : State) (login : String) (updated : UserAccount) (now : DateTime) : State :=
  ({ s with accounts := s.accounts.insert login updated }.endSessions login).invalidateAccountBots
    login now

/-- What an edit of an account comes to: its epoch moves, or cannot. -/
inductive Edited (s : State) (login : String) (edited : UserAccount) (now : DateTime) :
    State → Except Failure AccountSummary → Prop where
  | spoiled (failure : Failure) :
      Edited s login edited now { s with accounts := s.accounts.insert login edited } (.error failure)
  | moved {updated : UserAccount} (epoch : updated.authEpoch = edited.authEpoch + 1)
      (same : updated = { edited with authEpoch := updated.authEpoch, updatedAt := updated.updatedAt }) :
      Edited s login edited now (fenced s login updated now) (.ok updated.summary)

theorem epochMoved_ends {s : State} {edited : UserAccount} {now : DateTime} :
    match s.epochMoved login edited now with
    | .error (error, spoiled) => Edited s login edited now spoiled (.error (.error error))
    | .ok (updated, next) => Edited s login edited now next (.ok updated.summary) := by
  unfold State.epochMoved nextAuthEpoch
  by_cases bounded : edited.authEpoch + 1 < 2 ^ 64
  · rw [if_pos bounded]
    exact .moved rfl rfl
  · rw [if_neg bounded]
    exact .spoiled _

theorem moved_ends {edited : UserAccount} :
    Outcome.Ends (fun _ next answer => Edited core.state login edited core.now next answer)
      (Outcome.moved core login edited) := by
  unfold Outcome.moved
  have ends := @epochMoved_ends login core.state edited core.now
  rcases moved : core.state.epochMoved login edited core.now with ⟨error, spoiled⟩ | ⟨updated, next⟩
  · rw [moved] at ends
    exact ends
  · rw [moved] at ends
    exact ends

theorem resetAccountPasswordLocked_ends {hash : Except ForgeError String} :
    Outcome.Ends (fun _ next answer => ∃ account passwordHash,
      core.state.accounts.lookup login = some account ∧ hash = .ok passwordHash ∧
      Edited core.state login { account with passwordHash, mustChangePassword := true } core.now next
        answer) (resetAccountPasswordLocked login hash core) := by
  unfold resetAccountPasswordLocked
  cases found : core.state.accounts.lookup login with
  | none => exact True.intro
  | some account =>
    cases hash with
    | error error => exact True.intro
    | ok passwordHash =>
      exact moved_ends.mono fun _ _ _ edited => ⟨account, passwordHash, rfl, rfl, edited⟩

theorem changeAccountPasswordLocked_ends {hash : Except ForgeError String} :
    Outcome.Ends (fun _ next answer => ∃ account passwordHash,
      core.state.accounts.lookup login = some account ∧ hash = .ok passwordHash ∧
      Edited core.state login { account with passwordHash, mustChangePassword := false } core.now next
        answer) (changeAccountPasswordLocked login hash core) := by
  unfold changeAccountPasswordLocked
  cases found : core.state.accounts.lookup login with
  | none => exact True.intro
  | some account =>
    cases hash with
    | error error => exact True.intro
    | ok passwordHash =>
      exact moved_ends.mono fun _ _ _ edited => ⟨account, passwordHash, rfl, rfl, edited⟩

theorem forcePasswordChangeLocked_ends {forced : Bool} :
    Outcome.Ends (fun _ next answer => ∃ account, core.state.accounts.lookup login = some account ∧
      ((forced = false ∧ next = { core.state with accounts := (core.state.accounts.insert login
          { account with mustChangePassword := false, updatedAt := core.now }) }) ∨
        Edited core.state login { account with mustChangePassword := forced } core.now next answer))
      (forcePasswordChangeLocked login forced core) := by
  unfold forcePasswordChangeLocked
  cases found : core.state.accounts.lookup login with
  | none => exact True.intro
  | some account =>
    cases forced with
    | true => exact moved_ends.mono fun _ _ _ edited => ⟨account, rfl, .inr edited⟩
    | false => exact ⟨account, rfl, .inl ⟨rfl, rfl⟩⟩

theorem transitionAccountStatusLocked_ends {status : AccountStatus}
    {allowed : Option (List AccountStatus)} :
    Outcome.Ends (fun _ next answer => ∃ account, core.state.accounts.lookup login = some account ∧
      account.status ≠ status ∧ ∃ mid, Edited core.state login { account with status } core.now mid answer ∧
        (next = mid ∧ (answer.isOk = true → status.permitsAuthentication = true) ∨
          status.permitsAuthentication = false ∧ next = (mid.revokeTokensIssuedBy login core.now).2))
      (transitionAccountStatusLocked login status allowed core) := by
  unfold transitionAccountStatusLocked
  cases found : core.state.accounts.lookup login with
  | none => exact True.intro
  | some account =>
    dsimp only
    split
    · exact True.intro
    · split
      · exact True.intro
      · next differs =>
        have ends := @epochMoved_ends login core.state { account with status } core.now
        rcases moved : core.state.epochMoved login { account with status } core.now with
          ⟨error, spoiled⟩ | ⟨updated, next⟩
        · rw [moved] at ends
          exact ⟨account, rfl, differs, _, ends, .inl ⟨rfl, fun ok => nomatch ok⟩⟩
        · rw [moved] at ends
          cases permits : status.permitsAuthentication with
          | true => exact ⟨account, rfl, differs, _, ends, .inl ⟨rfl, fun _ => rfl⟩⟩
          | false => exact ⟨account, rfl, differs, _, ends, .inr ⟨rfl, rfl⟩⟩

end Accounts

section Credentials

variable {core : ForgeCore} {login : String}

theorem storeSessionLocked_ends {account : AccountSummary} {createdAt expiresAt : DateTime} :
    Outcome.Ends (fun draws next receipt => 0 < draws ∧ receipt.token = core.uuids ∧
      receipt.session.login = login ∧ receipt.session.authEpoch = account.authEpoch ∧
      next = { core.state with auth := { core.state.auth with
        sessions := core.state.auth.sessions.insert (tokenHash core.uuids) receipt.session } })
      (storeSessionLocked account login createdAt expiresAt core) :=
  ⟨by decide, rfl, rfl, rfl, rfl⟩

theorem revokeSessionLocked_ends {token : Secret} :
    Outcome.Ends (fun _ next _ => next = { core.state with auth := { core.state.auth with
      sessions := core.state.auth.sessions.erase (tokenHash token) } })
      (revokeSessionLocked token core) := rfl

theorem storePersonalTokenLocked_ends {account : AccountSummary} {name : String}
    {createdAt : DateTime} {expiresAt : Option DateTime} :
    Outcome.Ends (fun draws next receipt => draws = 2 ∧ receipt.secret = core.uuids ∧
      receipt.token.id = core.uuids + 1 ∧ receipt.token.tokenHash = tokenHash core.uuids ∧
      receipt.token.login = login ∧ receipt.token.authEpoch = account.authEpoch ∧
      next = { core.state with auth := { core.state.auth with
        personalTokens := core.state.auth.personalTokens.insert (core.uuids + 1) receipt.token } })
      (storePersonalTokenLocked account login name createdAt expiresAt core) :=
  ⟨rfl, rfl, rfl, rfl, rfl, rfl, rfl⟩

theorem revokePersonalTokenLocked_ends {id : Uuid} :
    Outcome.Ends (fun _ next _ => next = { core.state with auth := { core.state.auth with
      personalTokens := core.state.auth.personalTokens.erase id } } ∨ next = core.state)
      (revokePersonalTokenLocked login id core) := by
  unfold revokePersonalTokenLocked
  cases (core.state.auth.personalTokens.lookup id).any fun token => token.login = login with
  | true => exact .inl rfl
  | false => exact .inr rfl

theorem issuePasswordRecoveryLocked_ends {now : DateTime} :
    Outcome.Ends (fun draws next answer =>
      (draws = 0 ∧ answer = .error recoveryError ∧ next = core.state.pruneDeadRecoveries now) ∨
      ∃ (account : UserAccount) (record : PasswordRecoveryRecord), draws = 2 ∧
        core.state.accounts.lookup login = some account ∧
        account.status.permitsAuthentication = true ∧ record.tokenId = core.uuids + 1 ∧
        record.secretHash = tokenHash core.uuids ∧ record.login = login ∧
        record.authEpoch = account.authEpoch ∧ record.expiresAt = now + 60 * minute ∧
        record.consumedAt = none ∧ record.attemptCount = 0 ∧
        answer = .ok ⟨login, record.tokenId, core.uuids, record.expiresAt⟩ ∧
        next = (((core.state.pruneDeadRecoveries now).retireLiveSecrets login now).pruneDeadRecoveries
          now).withRecoveries fun rows => rows.insert record.tokenId record)
      (issuePasswordRecoveryLocked login now core) := by
  unfold issuePasswordRecoveryLocked
  dsimp only
  cases found : (core.state.accounts.lookup login).filter
      fun account => account.status.permitsAuthentication with
  | none => exact .inl ⟨rfl, rfl, rfl⟩
  | some account =>
    obtain ⟨stored, permits⟩ := Option.filter_eq_some_iff.mp found
    exact .inr ⟨account, { tokenId := core.uuids + 1, login, secretHash := tokenHash core.uuids
                           authEpoch := account.authEpoch, createdAt := now
                           expiresAt := now + 60 * minute, consumedAt := none, attemptCount := 0 },
      rfl, stored, permits, rfl, rfl, rfl, rfl, rfl, rfl, rfl, rfl, rfl⟩

theorem checkRecoveryLocked_ends {tokenId secret : Secret} :
    Outcome.Ends (fun draws next answer => draws = 0 ∧ answer = none ∧
      ∃ record, core.state.auth.passwordRecoveries.lookup tokenId = some record ∧
        record.isLive core.now = true ∧ tokenHash secret ≠ record.secretHash ∧
        next = core.state.withRecoveries fun rows =>
          rows.insert tokenId { record with attemptCount := record.attemptCount + 1 })
      (checkRecoveryLocked tokenId secret core) := by
  unfold checkRecoveryLocked State.verifySpend
  cases found : (core.state.auth.passwordRecoveries.lookup tokenId).filter
      fun record => record.isLive core.now with
  | none => exact True.intro
  | some record =>
    obtain ⟨stored, live⟩ := Option.filter_eq_some_iff.mp found
    by_cases wrong : tokenHash secret = record.secretHash
    · simp only [wrong, bne_self_eq_false, Bool.false_eq_true, if_false]
      cases core.state.accounts.lookup record.login with
      | none => exact True.intro
      | some account =>
        dsimp only
        split <;> rename_i decided <;> split at decided <;> cases decided
        · exact True.intro
        · exact True.intro
    · simp only [bne_iff_ne, ne_eq, wrong, not_false_eq_true, if_true]
      rw [stored]
      exact ⟨rfl, rfl, record, rfl, live, wrong, rfl⟩

theorem verifySpend_ok {s : State} {tokenId secret : Secret} {now : DateTime} {verified : VerifiedSpend}
    (verifies : s.verifySpend tokenId secret now = .ok verified) :
    ∃ record account, s.auth.passwordRecoveries.lookup tokenId = some record ∧
      record.isLive now = true ∧ tokenHash secret = record.secretHash ∧
      s.accounts.lookup record.login = some account ∧
      account.status.permitsAuthentication = true ∧ account.authEpoch = record.authEpoch ∧
      verified = ⟨record.login, record.authEpoch⟩ := by
  unfold State.verifySpend at verifies
  split at verifies
  · cases verifies
  · next record found =>
    obtain ⟨stored, live⟩ := Option.filter_eq_some_iff.mp found
    split at verifies
    · cases verifies
    · next same =>
      split at verifies
      · cases verifies
      · next account known =>
        split at verifies
        · next stands =>
          simp only [Bool.and_eq_true, decide_eq_true_eq] at stands
          cases verifies
          exact ⟨record, account, stored, live, by simpa using same, known, stands.1, stands.2, rfl⟩
        · cases verifies

theorem recoverPasswordLocked_ends {tokenId secret : Secret} {checked : VerifiedSpend}
    {passwordHash : String} {now : DateTime} :
    Outcome.Ends (fun draws next answer => ∃ account mid moved, draws = 0 ∧
      core.state.verifySpend tokenId secret now = .ok checked ∧
      core.state.accounts.lookup checked.login = some account ∧
      mid = (core.state.retireLiveSecrets checked.login now).pruneDeadRecoveries now ∧
      Edited mid checked.login { account with passwordHash, mustChangePassword := false } now next
        moved ∧ (answer.isOk = moved.isOk))
      (recoverPasswordLocked tokenId secret checked passwordHash now core) := by
  unfold recoverPasswordLocked
  cases verifies : core.state.verifySpend tokenId secret now with
  | error refusal => exact True.intro
  | ok verified =>
    refine ends_ite (fun _ => True.intro) fun same => ?_
    obtain rfl : verified = checked := by simpa using same
    cases found : core.state.accounts.lookup verified.login with
    | none => exact True.intro
    | some account =>
      dsimp only
      have ends := @epochMoved_ends verified.login
        ((core.state.retireLiveSecrets verified.login now).pruneDeadRecoveries now)
        { account with passwordHash, mustChangePassword := false } now
      rcases moved : ((core.state.retireLiveSecrets verified.login now).pruneDeadRecoveries now).epochMoved
        verified.login { account with passwordHash, mustChangePassword := false } now with
        ⟨error, spoiled⟩ | ⟨updated, next⟩
      · rw [moved] at ends
        exact ⟨account, _, _, rfl, rfl, rfl, rfl, ends, rfl⟩
      · rw [moved] at ends
        exact ⟨account, _, _, rfl, rfl, rfl, rfl, ends, rfl⟩

end Credentials

section Invitations

variable {core : ForgeCore}

theorem createAccountInvitationLocked_ends {issuer login displayName : String}
    {bindings : InvitationBindings} {now expiresAt : DateTime} {bootstrapOwner : Bool} :
    Outcome.Ends (fun draws next _ => draws = 2 ∧ core.state.accounts.lookup login = none ∧
      core.state.organizations.lookup login = none ∧ ∃ invitation : AccountInvitation,
        invitation.id = core.uuids + 1 ∧ invitation.canonicalLogin = login ∧
        invitation.activationSecretHash = tokenHash core.uuids ∧
        invitation.intendedBindings = bindings ∧ invitation.expiresAt = expiresAt ∧
        invitation.consumedAt = none ∧ invitation.revokedAt = none ∧ invitation.attemptCount = 0 ∧
        invitation.bootstrapOwner = bootstrapOwner ∧
        next = core.state.withInvitations fun rows => (rows.mapValues fun _ row =>
          if row.isOpen && row.expiresAt ≤ now then { row with revokedAt := some now } else row).insert
            invitation.id invitation)
      (createAccountInvitationLocked issuer login displayName bindings now expiresAt bootstrapOwner
        core) := by
  unfold createAccountInvitationLocked
  refine ends_ite (fun _ => True.intro) fun free => ends_ite (fun _ => True.intro) fun _ => ?_
  simp only [Bool.or_eq_true, not_or, Option.not_isSome_iff_eq_none] at free
  split
  · exact True.intro
  · exact True.intro
  · refine ends_ite (fun _ => True.intro) fun _ => ends_ite (fun _ => True.intro) fun _ => ?_
    refine ⟨rfl, free.1, free.2, { id := core.uuids + 1, canonicalLogin := login
                                   displayName := Text.trim displayName
                                   activationSecretHash := tokenHash core.uuids
                                   issuerPrincipal := Text.trim issuer, intendedBindings := bindings
                                   createdAt := now, expiresAt, consumedAt := none
                                   revokedAt := none, attemptCount := 0, bootstrapOwner },
      rfl, rfl, rfl, rfl, rfl, rfl, rfl, rfl, rfl, rfl⟩

theorem revokeAccountInvitationLocked_ends {id : Uuid} :
    Outcome.Ends (fun draws next _ => draws = 0 ∧ (next = core.state ∨ ∃ invitation,
      core.state.auth.invitations.lookup id = some invitation ∧ next = core.state.withInvitations
        fun rows => rows.insert id { invitation with revokedAt := some core.now }))
      (revokeAccountInvitationLocked id core) := by
  unfold revokeAccountInvitationLocked
  cases found : (core.state.auth.invitations.lookup id).filter AccountInvitation.isOpen with
  | none => exact ⟨rfl, .inl rfl⟩
  | some invitation =>
    exact ⟨rfl, .inr ⟨invitation, (Option.filter_eq_some_iff.mp found).1, rfl⟩⟩

/-- An attempt counted against an invitation. -/
def attempted (s : State) (invitation : AccountInvitation) : State :=
  s.withInvitations fun rows =>
    rows.insert invitation.id { invitation with attemptCount := invitation.attemptCount + 1 }

theorem startAccountActivationLocked_ends {login : String} {secret : Secret} {now : DateTime} :
    Outcome.Ends (fun draws next answer => ∃ invitation ∈ core.state.auth.invitations.values,
      invitation.canonicalLogin = login ∧ invitation.isOpen = true ∧ now < invitation.expiresAt ∧
      invitation.attemptCount < activationMaxAttempts ∧
      ((draws = 0 ∧ answer = .error activationError ∧
          tokenHash secret ≠ invitation.activationSecretHash ∧ next = attempted core.state invitation) ∨
        ∃ record : ActivationChallenge, draws = 2 ∧
          tokenHash secret = invitation.activationSecretHash ∧ record.invitationId = invitation.id ∧
          record.challengeHash = tokenHash core.uuids ∧ record.consumedAt = none ∧
          next = (attempted core.state invitation).withChallenges fun rows =>
            rows.insert (tokenHash core.uuids) record))
      (startAccountActivationLocked login secret now core) := by
  unfold startAccountActivationLocked
  cases found : core.state.auth.invitations.values.find? fun invitation =>
      invitation.canonicalLogin = login && invitation.isOpen && invitation.expiresAt > now with
  | none => exact True.intro
  | some invitation =>
    have holds := List.find?_some found
    simp only [Bool.and_eq_true, decide_eq_true_eq] at holds
    refine ends_ite (fun _ => True.intro) fun few => ends_ite (fun wrong => ?_) fun right => ?_
    · exact ⟨invitation, List.mem_of_find?_eq_some found, holds.1.1, holds.1.2, holds.2, by omega,
        .inl ⟨rfl, rfl, wrong, rfl⟩⟩
    · exact ⟨invitation, List.mem_of_find?_eq_some found, holds.1.1, holds.1.2, holds.2, by omega,
        .inr ⟨_, rfl, not_not.mp right, rfl, rfl, rfl, rfl⟩⟩

theorem completeAccountActivationLocked_ends {challenge : Digest} {passwordHash : String}
    {now : DateTime} :
    Outcome.Ends (fun _ next _ => ∃ record invitation account user,
      core.state.auth.activationChallenges.lookup challenge = some record ∧
      record.consumedAt = none ∧
      core.state.auth.invitations.lookup record.invitationId = some invitation ∧
      invitation.isOpen = true ∧ now < invitation.expiresAt ∧
      core.state.accounts.lookup invitation.canonicalLogin = none ∧
      core.state.missingTeam invitation.intendedBindings.teams = .ok none ∧
      (invitation.bootstrapOwner = true →
        core.state.auth.bootstrapOwnerConsumed = false ∧ core.state.hasAdmin = false) ∧
      account.canonicalLogin = invitation.canonicalLogin ∧
      account.role = invitation.intendedBindings.role ∧ account.authEpoch = 0 ∧
      next = core.state.activated challenge record invitation account user now)
      (completeAccountActivationLocked challenge passwordHash now core) := by
  unfold completeAccountActivationLocked
  cases found : (core.state.auth.activationChallenges.lookup challenge).filter fun record =>
      record.consumedAt.isNone && record.expiresAt > now with
  | none => exact True.intro
  | some record =>
    obtain ⟨stored, fresh⟩ := Option.filter_eq_some_iff.mp found
    dsimp only
    cases invited : (core.state.auth.invitations.lookup record.invitationId).filter fun invitation =>
        invitation.isOpen && invitation.expiresAt > now &&
          invitation.attemptCount ≤ activationMaxAttempts with
    | none => exact True.intro
    | some invitation =>
      obtain ⟨kept, standing⟩ := Option.filter_eq_some_iff.mp invited
      simp only [Bool.and_eq_true, decide_eq_true_eq, Option.isNone_iff_eq_none] at fresh standing
      dsimp only
      refine ends_ite (fun _ => True.intro) fun free => ?_
      cases teams : core.state.missingTeam invitation.intendedBindings.teams with
      | error error => exact True.intro
      | ok missing =>
        cases missing with
        | some binding => exact True.intro
        | none =>
          refine ends_ite (fun _ => True.intro) fun first => ?_
          refine ⟨record, invitation, _, _, stored, fresh.1, kept, standing.1.1, standing.1.2,
            by simpa using free, teams, fun owner => ?_, rfl, rfl, rfl, rfl⟩
          simpa [owner] using first

end Invitations

section Organizations

variable {core : ForgeCore} {actor org login : String}

theorem createOrganizationLocked_ends {request : CreateOrganizationRequest} :
    Outcome.Ends (fun _ next _ => core.state.organizations.lookup request.login = none ∧
      ∃ organization : Organization, next = { core.state with
        organizations := core.state.organizations.insert request.login organization })
      (createOrganizationLocked request core) := by
  unfold createOrganizationLocked
  refine ends_ite (fun _ => True.intro) fun absent => ?_
  exact ⟨by simpa using absent, _, rfl⟩

theorem createOrganizationAsLocked_ends {displayName : Option String} {owners : List String} :
    Outcome.Ends (fun _ next _ => core.state.organizations.lookup login = none ∧
      core.state.accounts.lookup login = none ∧ core.state.users.lookup login = none ∧
      ∃ organization : Organization, next = { core.state with
        organizations := core.state.organizations.insert login organization })
      (createOrganizationAsLocked actor login displayName owners core) := by
  unfold createOrganizationAsLocked
  refine ends_ite (fun _ => True.intro) fun _ => ends_ite (fun _ => True.intro) fun free => ?_
  simp only [Bool.or_eq_true, not_or, Option.not_isSome_iff_eq_none] at free
  split
  · exact True.intro
  · exact True.intro
  · exact ⟨free.1.1, free.1.2, free.2, _, rfl⟩

theorem managedOrganization_ok {s : State} {organization : Organization}
    (managed : s.managedOrganization actor org = .ok organization) :
    s.organizations.lookup org = some organization := by
  unfold State.managedOrganization at managed
  split at managed
  · cases managed
  · split at managed
    · cases managed
    · next stored found =>
      split at managed
      · cases managed
      · split at managed
        · cases managed
        · cases managed
          exact found

theorem addOrganizationOwnerLocked_ends :
    Outcome.Ends (fun _ next _ => ∃ organization organization' : Organization,
      core.state.organizations.lookup org = some organization ∧ next = { core.state with
        organizations := core.state.organizations.insert org organization' })
      (addOrganizationOwnerLocked actor org login core) := by
  unfold addOrganizationOwnerLocked
  cases managed : core.state.managedOrganization actor org with
  | error error => exact True.intro
  | ok organization =>
    dsimp only
    split
    · exact True.intro
    · refine ends_ite (fun _ => True.intro) fun _ => ends_ite (fun _ => True.intro) fun _ => ?_
      exact ⟨organization, _, managedOrganization_ok managed, rfl⟩

theorem removeOrganizationOwnerLocked_ends :
    Outcome.Ends (fun _ next _ => ∃ organization organization' : Organization,
      core.state.organizations.lookup org = some organization ∧ next = { core.state with
        organizations := core.state.organizations.insert org organization' })
      (removeOrganizationOwnerLocked actor org login core) := by
  unfold removeOrganizationOwnerLocked
  cases managed : core.state.managedOrganization actor org with
  | error error => exact True.intro
  | ok organization =>
    refine ends_ite (fun _ => True.intro) fun _ => ends_ite (fun _ => True.intro) fun _ => ?_
    exact ⟨organization, _, managedOrganization_ok managed, rfl⟩

end Organizations

section Teams

variable {core : ForgeCore} {actor org login : String}

theorem createTeamLocked_ends {slug : String} {request : CreateTeamRequest} :
    Outcome.Ends (fun _ next _ => core.state.auth.teams.lookup (org, slug) = none ∧
      ∃ team : Team, next = core.state.withTeam org slug team)
      (createTeamLocked org slug request core) := by
  unfold createTeamLocked
  refine ends_ite (fun _ => True.intro) fun _ => ends_ite (fun _ => True.intro) fun free => ?_
  exact ⟨by simpa using free, _, rfl⟩

theorem createTeamAsLocked_ends {name slug : String} {members : List String} :
    Outcome.Ends (fun _ next _ => core.state.auth.teams.lookup (org, slug) = none ∧
      ∃ team : Team, next = core.state.withTeam org slug team)
      (createTeamAsLocked actor org name slug members core) := by
  unfold createTeamAsLocked
  split
  · exact True.intro
  · refine ends_ite (fun _ => True.intro) fun free => ?_
    split
    · exact True.intro
    · exact ⟨by simpa using free, _, rfl⟩

theorem mem_sorted {name : String} {names : List String} : name ∈ sorted names ↔ name ∈ names :=
  (List.perm_insertionSort _ _).mem_iff

theorem addTeamMemberLocked_ends {team : String} :
    Outcome.Ends (fun _ next _ => ∃ stored stored' : Team,
      core.state.auth.teams.lookup (org, team) = some stored ∧
      (∀ member ∈ stored.members, member ∈ stored'.members) ∧
      next = core.state.withTeam org team stored')
      (addTeamMemberLocked actor org team login core) := by
  unfold addTeamMemberLocked
  split
  · exact True.intro
  · cases found : core.state.auth.teams.lookup (org, team) with
    | none => exact True.intro
    | some stored =>
      dsimp only
      split
      · exact True.intro
      · refine ends_ite (fun _ => True.intro) fun _ => ends_ite (fun _ => True.intro) fun _ => ?_
        refine ⟨stored, _, rfl, fun member inside => ?_, rfl⟩
        exact mem_sorted.mpr (List.mem_append_left _ inside)

theorem removeTeamMemberLocked_ends {team : String} {now : DateTime} :
    Outcome.Ends (fun _ next _ => ∃ stored stored' : Team,
      core.state.auth.teams.lookup (org, team) = some stored ∧
      (∀ member ∈ stored.members, member = login ∨ member ∈ stored'.members) ∧
      next = ((core.state.withTeam org team stored').revokeStewardTokens org team login now).2)
      (removeTeamMemberLocked actor org team login now core) := by
  unfold removeTeamMemberLocked
  split
  · exact True.intro
  · cases found : core.state.auth.teams.lookup (org, team) with
    | none => exact True.intro
    | some stored =>
      refine ends_ite (fun _ => True.intro) fun _ => ?_
      refine ⟨stored, _, rfl, fun member inside => ?_, rfl⟩
      by_cases same : member = login
      · exact .inl same
      · exact .inr (List.mem_filter.mpr ⟨inside, by simpa using same⟩)

end Teams

end Jeryu.Auth
