import Jeryu.Auth.BotEffects

namespace Jeryu.Auth

open Jeryu.Core KeyedMap

section States

variable {s : State} {login : String} {now : DateTime}

theorem mapKeys_within (f : BotKeyRecord → BotKeyRecord) : Within [.botKeys] s (s.mapKeys f) :=
  within_botKeys _

theorem mapTokens_within (f : BotAccessTokenRecord → BotAccessTokenRecord) :
    Within [.botAccessTokens] s (s.mapTokens f) := within_botAccessTokens _

theorem dropRefresh_within (drops : BotRefreshRecord → Bool) :
    Within [.botRefresh] s (s.dropRefresh drops) := within_botRefresh _

theorem withRecoveries_within
    (f : HashMap Secret PasswordRecoveryRecord → HashMap Secret PasswordRecoveryRecord) :
    Within [.recoveries] s (s.withRecoveries f) := within_recoveries _

theorem withRefresh_within
    (f : HashMap Digest BotRefreshRecord → HashMap Digest BotRefreshRecord) :
    Within [.botRefresh] s (s.withRefresh f) := within_botRefresh _

theorem withOperations_within (f : HashMap (Uuid × String × RequestKey) BotOperationRecord →
      HashMap (Uuid × String × RequestKey) BotOperationRecord) :
    Within [.botOperations] s (s.withOperations f) := within_botOperations _

theorem endSessions_within : Within [.sessions, .personalTokens] s (s.endSessions login) := by
  have sessions : Within [.sessions, .personalTokens] s { s with auth := { s.auth with
      sessions := s.auth.sessions.retain fun _ session => session.login != login } } :=
    (within_sessions _).widen (by decide)
  exact sessions.trans ((within_personalTokens _).widen (by decide))

theorem invalidateAccountBots_within :
    Within [.bots, .botKeys, .botRefresh] s (s.invalidateAccountBots login now) := by
  have bots : Within [.bots, .botKeys, .botRefresh] s
      { s with bots := s.bots.mapValues fun id bot =>
          if (s.ownedBots login).contains id then bot.regenerated now else bot } :=
    (within_bots _).widen (by decide)
  exact (bots.trans ((mapKeys_within _).widen (by decide))).trans ((dropRefresh_within _).widen (by decide))

theorem revokeTokensIssuedBy_within :
    Within [.botAccessTokens] s (s.revokeTokensIssuedBy login now).2 := mapTokens_within _

theorem revokeStewardTokens_within {org team : String} :
    Within [.botAccessTokens] s (s.revokeStewardTokens org team login now).2 := mapTokens_within _

theorem withTeam_within {org slug : String} {team : Team} :
    Within [.teams] s (s.withTeam org slug team) := within_teams _

theorem noteAuth_within {botId : Uuid} : Within [.bots] s (s.noteAuth botId now) := by
  unfold State.noteAuth
  split
  · exact within_bots _
  · exact within_refl

theorem revokeRefreshFamily_within {botId : Uuid} :
    Within [.bots, .botRefresh] s (s.revokeRefreshFamily botId now) := by
  unfold State.revokeRefreshFamily
  have dropped := @dropRefresh_within s fun token => token.botId = botId
  dsimp only
  split
  · exact (dropped.widen (by decide)).trans ((within_bots _).widen (by decide))
  · exact dropped.widen (by decide)

theorem issueRefresh_within {bot : BotRecord} {key : BotKeyRecord} {token : Secret} :
    Within [.botRefresh] s (s.issueRefresh bot key token now).2 :=
  ((withRefresh_within _).trans (withRefresh_within _)).trans (withRefresh_within _)

theorem joinTeams_within {bindings : List String} :
    Within [.teams] s (s.joinTeams login bindings) := by
  induction bindings generalizing s with
  | nil => exact within_refl
  | cons binding rest ih =>
    unfold State.joinTeams
    split
    · exact ih
    · split
      · exact ih
      · split
        · exact ih
        · exact withTeam_within.trans ih

theorem pruneDeadRecoveries_within : Within [.recoveries] s (s.pruneDeadRecoveries now) :=
  withRecoveries_within _

theorem retireLiveSecrets_within : Within [.recoveries] s (s.retireLiveSecrets login now) :=
  withRecoveries_within _

theorem pruneBotOperations_within : Within [.botOperations] s (s.pruneBotOperations now) :=
  withOperations_within _

theorem pruneForRefresh_within {presented : Digest} :
    Within [.botOperations] s (pruneForRefresh presented now s) := by
  unfold pruneForRefresh
  split
  · exact pruneBotOperations_within
  · exact within_refl

theorem withInvitations_within (f : HashMap Uuid AccountInvitation → HashMap Uuid AccountInvitation) :
    Within [.invitations] s (s.withInvitations f) :=
  within_only .invitations fun t' other => by cases t' <;> first | rfl | exact absurd rfl other

theorem withChallenges_within
    (f : HashMap Digest ActivationChallenge → HashMap Digest ActivationChallenge) :
    Within [.invitations] s (s.withChallenges f) :=
  within_only .invitations fun t' other => by cases t' <;> first | rfl | exact absurd rfl other

/-- The tables an epoch that moves takes with it. -/
def credentialTables : List Table :=
  [.accounts, .sessions, .personalTokens, .bots, .botKeys, .botRefresh]

theorem fenced_within {updated : UserAccount} : Within credentialTables s (fenced s login updated now) :=
  ((within_accounts _).widen (by decide)).trans
    ((endSessions_within.widen (by decide)).trans (invalidateAccountBots_within.widen (by decide)))

theorem Edited.within {edited : UserAccount} {next : State} {answer : Except Failure AccountSummary}
    (edit : Edited s login edited now next answer) : Within credentialTables s next := by
  cases edit with
  | spoiled failure => exact (within_accounts _).widen (by decide)
  | moved epoch same => exact fenced_within

end States

/-- The tables a call may write. -/
def Call.tables : Call → List Table
  | .createUser .. | .ensureUser .. => [.users]
  | .createAccount .. => [.users, .accounts]
  | .createTemporaryAccount .. => .users :: credentialTables
  | .resetAccountPassword .. | .changeAccountPassword .. | .forcePasswordChange .. =>
    credentialTables
  | .disableAccount .. | .lockAccount .. | .reactivateAccount .. | .markAccountMfaActive .. =>
    .botAccessTokens :: credentialTables
  | .issuePasswordRecovery .. => [.recoveries]
  | .recoverPassword .. => .recoveries :: credentialTables
  | .createSession .. | .revokeSession .. => [.sessions]
  | .createPersonalAccessToken .. | .revokePersonalAccessToken .. => [.personalTokens]
  | .createAccountInvitation .. | .revokeAccountInvitation .. | .startAccountActivation .. =>
    [.invitations]
  | .completeAccountActivation .. => [.users, .accounts, .invitations, .teams]
  | .createOrganization .. | .createOrganizationAs .. | .addOrganizationOwner ..
  | .removeOrganizationOwner .. => [.organizations]
  | .createTeam .. | .createTeamAs .. | .addTeamMember .. => [.teams]
  | .removeTeamMember .. => [.teams, .botAccessTokens]
  | .enrollBot .. | .enrollTeamBot .. => [.bots, .botKeys]
  | .rotateBotKey .. | .revokeBot .. => [.bots, .botKeys, .botRefresh]
  | .suspendBot .. | .noteBotObservation .. => [.bots]
  | .exchangeBotEnrollmentKey .. | .rotateBotRefreshToken .. => [.bots, .botRefresh]
  | .rotateBotRefreshTokenIdempotent .. => [.bots, .botRefresh, .botOperations]
  | .issueBotAccessToken .. | .revokeBotAccessToken .. | .authenticateBotAccessToken ..
  | .revokeIssuedTeamBotTokens .. => [.botAccessTokens]
  | .reserveBotOperation .. | .finishBotOperation .. => [.botOperations]
  | .authenticatePassword .. | .sessionForToken .. | .authenticatePersonalAccessToken ..
  | .authenticateBotAccess .. | .authorizeBot .. | .authorizeBotRefWrite ..
  | .grantBotRepository .. | .revokeBotRepositoryGrant .. => []

section Sections

variable {core : ForgeCore} {now : DateTime}

/-- What a presented token leaves stays within the bots and their refresh tokens. -/
theorem Presented.within {presented : Digest} {existing : BotRefreshRecord} {next : State}
    {answer : Except Failure RefreshAnswer} (left : Presented core presented now existing next answer) :
    Within [.bots, .botRefresh] core.state next := by
  cases left with
  | reused actor subject used => exact revokeRefreshFamily_within
  | spoiled failure unused => exact (withRefresh_within _).widen (by decide)

theorem succeeded_within {presented : Digest} {bot : BotRecord} {key : BotKeyRecord} :
    Within [.botRefresh] core.state (succeeded core presented now bot key).2 :=
  (withRefresh_within _).trans issueRefresh_within

theorem retired_within {s : State} {bot : BotRecord} {botId : Uuid} :
    Within [.bots, .botKeys, .botRefresh] s (retired s bot botId now) := by
  have bots : Within [.bots, .botKeys, .botRefresh] s
      { s with bots := (s.bots.insert botId { bot.regenerated now with status := .revoked }) } :=
    (within_bots _).widen (by decide)
  exact (bots.trans ((mapKeys_within _).widen (by decide))).trans ((dropRefresh_within _).widen (by decide))

theorem rekeyed_within {s : State} {bot : BotRecord} {key : BotKeyRecord} {stale : Bool} :
    Within [.bots, .botKeys, .botRefresh] s (rekeyed s bot key stale now) := by
  have keys : Within [.bots, .botKeys, .botRefresh] s (s.mapKeys (rotatedKey key.botId stale now)) :=
    (mapKeys_within _).widen (by decide)
  have dropped : Within [.bots, .botKeys, .botRefresh] s
      (if stale then (s.mapKeys (rotatedKey key.botId stale now)).dropRefresh
        fun token => token.botId = key.botId else s.mapKeys (rotatedKey key.botId stale now)) := by
    cases stale with
    | false => exact keys
    | true => exact keys.trans ((dropRefresh_within _).widen (by decide))
  exact (dropped.trans ((within_botKeys _).widen (by decide))).trans ((within_bots _).widen (by decide))

theorem accountOf_within {s : State} {users : HashMap String User} {bindings : List String}
    {login : String} {consumed : Bool} {account : UserAccount} :
    let joined := ({ s with users } : State).joinTeams login bindings
    Within [.users, .accounts, .invitations, .teams] s
      { joined with
        auth := { joined.auth with bootstrapOwnerConsumed := consumed }
        accounts := joined.accounts.insert login account } := by
  intro joined
  have named : Within [.users, .accounts, .invitations, .teams] s { s with users } :=
    (within_users _).widen (by decide)
  have teams : Within [.users, .accounts, .invitations, .teams] { s with users } joined :=
    joinTeams_within.widen (by decide)
  refine (named.trans teams).trans fun t outside => ?_
  cases t <;> first | rfl | exact absurd outside (by decide)

theorem activated_within {s : State} {challenge : Digest} {record : ActivationChallenge}
    {invitation : AccountInvitation} {account : UserAccount} {user : User} :
    Within [.users, .accounts, .invitations, .teams] s
      (s.activated challenge record invitation account user now) := by
  have challenges : Within [.users, .accounts, .invitations, .teams] s
      (s.withChallenges fun rows => rows.insert challenge { record with consumedAt := some now }) :=
    (withChallenges_within _).widen (by decide)
  have spent := challenges.trans ((withInvitations_within (fun rows =>
    rows.insert invitation.id { invitation with consumedAt := some now })).widen (by decide))
  exact spent.trans accountOf_within

section Outcomes

variable {login actor org : String} {botId : Uuid}

theorem createUser_within {request : CreateUserRequest} :
    Within [.users] core.state ((createUserLocked request core).leaves core).state := by
  refine (createUserLocked_ends.mono fun _ next _ made => ?_).leaves_within
  obtain ⟨-, user, rfl⟩ := made
  exact within_users _

theorem createAccount_within {role : UserRole} {hash : Except ForgeError String} :
    Within [.users, .accounts] core.state ((createAccountLocked login role hash core).leaves core).state := by
  refine (createAccountLocked_ends.mono fun _ next _ made => ?_).leaves_within
  obtain ⟨-, -, account, user, -, -, -, rfl⟩ := made
  exact ((within_users _).widen (by decide)).trans ((within_accounts _).widen (by decide))

theorem reset_within {hash : Except ForgeError String} :
    Within credentialTables core.state ((resetAccountPasswordLocked login hash core).leaves core).state := by
  refine (resetAccountPasswordLocked_ends.mono fun _ next _ made => ?_).leaves_within
  obtain ⟨account, passwordHash, -, -, edit⟩ := made
  exact edit.within

theorem change_within {hash : Except ForgeError String} :
    Within credentialTables core.state ((changeAccountPasswordLocked login hash core).leaves core).state := by
  refine (changeAccountPasswordLocked_ends.mono fun _ next _ made => ?_).leaves_within
  obtain ⟨account, passwordHash, -, -, edit⟩ := made
  exact edit.within

theorem force_within {forced : Bool} :
    Within credentialTables core.state ((forcePasswordChangeLocked login forced core).leaves core).state := by
  refine (forcePasswordChangeLocked_ends.mono fun _ next _ made => ?_).leaves_within
  obtain ⟨account, -, ⟨-, rfl⟩ | edit⟩ := made
  · exact (within_accounts _).widen (by decide)
  · exact edit.within

theorem transition_within {status : AccountStatus} {allowed : Option (List AccountStatus)} :
    Within (.botAccessTokens :: credentialTables) core.state
      ((transitionAccountStatusLocked login status allowed core).leaves core).state := by
  refine (transitionAccountStatusLocked_ends.mono fun _ next _ made => ?_).leaves_within
  obtain ⟨account, -, -, mid, edit, ⟨rfl, -⟩ | ⟨-, rfl⟩⟩ := made
  · exact edit.within.widen (by decide)
  · exact (edit.within.widen (by decide)).trans (revokeTokensIssuedBy_within.widen (by decide))

theorem issuePasswordRecovery_within :
    Within [.recoveries] core.state ((issuePasswordRecoveryLocked login now core).leaves core).state := by
  refine (issuePasswordRecoveryLocked_ends.mono fun _ next _ made => ?_).leaves_within
  obtain ⟨-, -, rfl⟩ | ⟨account, record, -, -, -, -, -, -, -, -, -, -, -, rfl⟩ := made
  · exact pruneDeadRecoveries_within
  · exact ((pruneDeadRecoveries_within.trans retireLiveSecrets_within).trans
      pruneDeadRecoveries_within).trans (withRecoveries_within _)

theorem checkRecovery_within {tokenId secret : Secret} :
    Within [.recoveries] core.state ((checkRecoveryLocked tokenId secret core).leaves core).state := by
  refine (checkRecoveryLocked_ends.mono fun _ next _ made => ?_).leaves_within
  obtain ⟨-, -, record, -, -, -, rfl⟩ := made
  exact withRecoveries_within _

theorem recoverPassword_within {tokenId secret : Secret} {checked : VerifiedSpend}
    {passwordHash : String} :
    Within (.recoveries :: credentialTables) core.state
      ((recoverPasswordLocked tokenId secret checked passwordHash now core).leaves core).state := by
  refine (recoverPasswordLocked_ends.mono fun _ next _ made => ?_).leaves_within
  obtain ⟨account, mid, moved, -, -, -, rfl, edit, -⟩ := made
  exact ((retireLiveSecrets_within.trans pruneDeadRecoveries_within).widen (by decide)).trans
    (edit.within.widen (by decide))

theorem storeSession_within {account : AccountSummary} {createdAt expiresAt : DateTime} :
    Within [.sessions] core.state
      ((storeSessionLocked account login createdAt expiresAt core).leaves core).state := by
  refine (storeSessionLocked_ends.mono fun _ next _ made => ?_).leaves_within
  obtain ⟨-, -, -, -, rfl⟩ := made
  exact within_sessions _

theorem revokeSession_within {token : Secret} :
    Within [.sessions] core.state ((revokeSessionLocked token core).leaves core).state := by
  refine (revokeSessionLocked_ends.mono fun _ next _ made => ?_).leaves_within
  rw [made]
  exact within_sessions _

theorem storePersonalToken_within {account : AccountSummary} {name : String} {createdAt : DateTime}
    {expiresAt : Option DateTime} :
    Within [.personalTokens] core.state
      ((storePersonalTokenLocked account login name createdAt expiresAt core).leaves core).state := by
  refine (storePersonalTokenLocked_ends.mono fun _ next _ made => ?_).leaves_within
  obtain ⟨-, -, -, -, -, -, rfl⟩ := made
  exact within_personalTokens _

theorem revokePersonalToken_within {id : Uuid} :
    Within [.personalTokens] core.state ((revokePersonalTokenLocked login id core).leaves core).state := by
  refine (revokePersonalTokenLocked_ends.mono fun _ next _ made => ?_).leaves_within
  obtain rfl | rfl := made
  · exact within_personalTokens _
  · exact within_refl

theorem createAccountInvitation_within {issuer displayName : String} {bindings : InvitationBindings}
    {expiresAt : DateTime} {bootstrapOwner : Bool} :
    Within [.invitations] core.state ((createAccountInvitationLocked issuer login displayName bindings
      now expiresAt bootstrapOwner core).leaves core).state := by
  refine (createAccountInvitationLocked_ends.mono fun _ next _ made => ?_).leaves_within
  obtain ⟨-, -, -, invitation, -, -, -, -, -, -, -, -, -, rfl⟩ := made
  exact withInvitations_within _

theorem revokeAccountInvitation_within {id : Uuid} :
    Within [.invitations] core.state ((revokeAccountInvitationLocked id core).leaves core).state := by
  refine (revokeAccountInvitationLocked_ends.mono fun _ next _ made => ?_).leaves_within
  obtain ⟨-, rfl | ⟨invitation, -, rfl⟩⟩ := made
  · exact within_refl
  · exact withInvitations_within _

theorem startAccountActivation_within {secret : Secret} :
    Within [.invitations] core.state
      ((startAccountActivationLocked login secret now core).leaves core).state := by
  refine (startAccountActivationLocked_ends.mono fun _ next _ made => ?_).leaves_within
  obtain ⟨invitation, -, -, -, -, -, ⟨-, -, -, rfl⟩ | ⟨record, -, -, -, -, -, rfl⟩⟩ := made
  · exact withInvitations_within _
  · exact (withInvitations_within _).trans (withChallenges_within _)

theorem completeAccountActivation_within {challenge : Digest} {passwordHash : String} :
    Within [.users, .accounts, .invitations, .teams] core.state
      ((completeAccountActivationLocked challenge passwordHash now core).leaves core).state := by
  refine (completeAccountActivationLocked_ends.mono fun _ next _ made => ?_).leaves_within
  obtain ⟨record, invitation, account, user, -, -, -, -, -, -, -, -, -, -, -, rfl⟩ := made
  exact activated_within

theorem createOrganization_within {request : CreateOrganizationRequest} :
    Within [.organizations] core.state ((createOrganizationLocked request core).leaves core).state := by
  refine (createOrganizationLocked_ends.mono fun _ next _ made => ?_).leaves_within
  obtain ⟨-, organization, rfl⟩ := made
  exact within_organizations _

theorem createOrganizationAs_within {displayName : Option String} {owners : List String} :
    Within [.organizations] core.state
      ((createOrganizationAsLocked actor login displayName owners core).leaves core).state := by
  refine (createOrganizationAsLocked_ends.mono fun _ next _ made => ?_).leaves_within
  obtain ⟨-, -, -, organization, rfl⟩ := made
  exact within_organizations _

theorem addOrganizationOwner_within :
    Within [.organizations] core.state
      ((addOrganizationOwnerLocked actor org login core).leaves core).state := by
  refine (addOrganizationOwnerLocked_ends.mono fun _ next _ made => ?_).leaves_within
  obtain ⟨organization, organization', -, rfl⟩ := made
  exact within_organizations _

theorem removeOrganizationOwner_within :
    Within [.organizations] core.state
      ((removeOrganizationOwnerLocked actor org login core).leaves core).state := by
  refine (removeOrganizationOwnerLocked_ends.mono fun _ next _ made => ?_).leaves_within
  obtain ⟨organization, organization', -, rfl⟩ := made
  exact within_organizations _

theorem createTeam_within {slug : String} {request : CreateTeamRequest} :
    Within [.teams] core.state ((createTeamLocked org slug request core).leaves core).state := by
  refine (createTeamLocked_ends.mono fun _ next _ made => ?_).leaves_within
  obtain ⟨-, team, rfl⟩ := made
  exact withTeam_within

theorem createTeamAs_within {name slug : String} {members : List String} :
    Within [.teams] core.state ((createTeamAsLocked actor org name slug members core).leaves core).state := by
  refine (createTeamAsLocked_ends.mono fun _ next _ made => ?_).leaves_within
  obtain ⟨-, team, rfl⟩ := made
  exact withTeam_within

theorem addTeamMember_within {team : String} :
    Within [.teams] core.state ((addTeamMemberLocked actor org team login core).leaves core).state := by
  refine (addTeamMemberLocked_ends.mono fun _ next _ made => ?_).leaves_within
  obtain ⟨stored, stored', -, -, rfl⟩ := made
  exact withTeam_within

theorem removeTeamMember_within {team : String} :
    Within [.teams, .botAccessTokens] core.state
      ((removeTeamMemberLocked actor org team login now core).leaves core).state := by
  refine (removeTeamMemberLocked_ends.mono fun _ next _ made => ?_).leaves_within
  obtain ⟨stored, stored', -, -, rfl⟩ := made
  exact (withTeam_within.widen (by decide)).trans (revokeStewardTokens_within.widen (by decide))

theorem storeEnrolledBot_within {record : Uuid → BotRecord} {env : String} :
    Within [.bots, .botKeys] core.state ((storeEnrolledBotLocked record env core).leaves core).state := by
  refine (storeEnrolledBotLocked_ends.mono fun _ next _ made => ?_).leaves_within
  obtain ⟨-, -, key, -, -, -, -, -, rfl⟩ := made
  have keyed : Within [.bots, .botKeys] core.state (core.state.withKey key) :=
    (within_botKeys _).widen (by decide)
  exact keyed.trans ((within_bots _).widen (by decide))

theorem rotateBotKey_within {account : AccountSummary} :
    Within [.bots, .botKeys, .botRefresh] core.state
      ((rotateBotKeyLocked actor account botId now core).leaves core).state := by
  refine (rotateBotKeyLocked_ends.mono fun _ next _ made => ?_).leaves_within
  obtain ⟨bot, stored, stale, bot', key, -, -, -, -, -, -, -, -, -, -, -, rfl⟩ := made
  exact rekeyed_within

theorem suspendBot_within :
    Within [.bots] core.state ((suspendBotLocked actor botId core).leaves core).state := by
  refine (suspendBotLocked_ends.mono fun _ next _ made => ?_).leaves_within
  obtain ⟨bot, -, rfl⟩ := made
  exact within_bots _

theorem revokeBot_within :
    Within [.bots, .botKeys, .botRefresh] core.state
      ((revokeBotLocked actor botId now core).leaves core).state := by
  refine (revokeBotLocked_ends.mono fun _ next _ made => ?_).leaves_within
  obtain ⟨bot, -, rfl⟩ := made
  exact retired_within

theorem noteBotObservation_within {observation : BotObservation} :
    Within [.bots] core.state ((noteBotObservationLocked botId observation now core).leaves core).state := by
  refine (noteBotObservationLocked_ends.mono fun _ next _ made => ?_).leaves_within
  obtain ⟨bot, bot', -, -, botActivity, rfl⟩ := made
  exact within_only .bots fun t' other => by
    cases t' <;> first | rfl | exact ⟨rfl, rfl, rfl⟩ | exact absurd rfl other

theorem exchangeBotEnrollmentKey_within {keyId : Secret} {verifiedHash : Digest}
    {random : Except ForgeError Unit} :
    Within [.bots, .botRefresh] core.state
      ((exchangeBotEnrollmentKeyLocked keyId verifiedHash random now core).leaves core).state := by
  refine (exchangeBotEnrollmentKeyLocked_ends.mono fun _ next _ made => ?_).leaves_within
  obtain ⟨key, bot, -, -, -, -, -, -, -, -, rfl⟩ := made
  exact (issueRefresh_within.widen (by decide)).trans (noteAuth_within.widen (by decide))

theorem rotateBotRefreshToken_within {presented : Digest} {random : Except ForgeError Unit} :
    Within [.bots, .botRefresh] core.state
      ((rotateBotRefreshTokenLocked presented random now core).leaves core).state := by
  refine (rotateBotRefreshTokenLocked_ends.mono fun _ next _ made => ?_).leaves_within
  obtain ⟨existing, -, ⟨-, left⟩ | ⟨bot, key, -, -, -, rfl⟩⟩ := made
  · exact left.within
  · exact (succeeded_within.widen (by decide)).trans (noteAuth_within.widen (by decide))

theorem rotateIdempotent_within {vaultKey : Option String} {presented : Digest}
    {requestKey bodyDigest : String} {random : Except ForgeError Unit} :
    Within [.bots, .botRefresh, .botOperations] core.state ((rotateIdempotentLocked vaultKey presented
      requestKey bodyDigest random now core).leaves core).state := by
  refine (rotateIdempotentLocked_ends.mono fun _ next _ made => ?_).leaves_within
  obtain ⟨existing, -, ⟨-, left⟩ | ⟨bot, key, vault, -, -, -, -, -, rfl⟩⟩ := made
  · exact left.within.widen (by decide)
  · have recorded : Within [.bots, .botRefresh, .botOperations] core.state
        ((succeeded core presented now bot key).2.withOperations fun rows =>
          rows.insert (refreshOperationKey existing.botId presented requestKey) (rotation existing
            presented requestKey bodyDigest vault (succeeded core presented now bot key).1 now)) :=
      (succeeded_within.widen (by decide)).trans ((withOperations_within _).widen (by decide))
    exact recorded.trans (noteAuth_within.widen (by decide))

theorem issueBotAccessToken_within {label : Option String} {ttlDays : Nat} :
    Within [.botAccessTokens] core.state
      ((issueBotAccessTokenLocked actor botId label ttlDays now core).leaves core).state := by
  refine (issueBotAccessTokenLocked_ends.mono fun _ next _ made => ?_).leaves_within
  obtain ⟨bot, record, -, -, -, -, -, -, -, -, -, rfl⟩ := made
  exact within_botAccessTokens _

theorem revokeBotAccessToken_within {tokenId : Secret} :
    Within [.botAccessTokens] core.state
      ((revokeBotAccessTokenLocked actor botId tokenId now core).leaves core).state := by
  refine (revokeBotAccessTokenLocked_ends.mono fun _ next _ made => ?_).leaves_within
  obtain ⟨hash, record, revoked, -, -, rfl⟩ := made
  exact within_botAccessTokens _

theorem noteTokenUse_within {token : Secret} :
    Within [.botAccessTokens] core.state ((noteTokenUseLocked token now core).leaves core).state := by
  refine (noteTokenUseLocked_ends.mono fun _ next _ made => ?_).leaves_within
  obtain ⟨record, -, rfl⟩ := made
  exact within_botAccessTokens _

theorem revokeIssued_within :
    Within [.botAccessTokens] core.state
      ((revokeIssuedTeamBotTokensLocked actor now core).leaves core).state := by
  refine (revokeIssuedTeamBotTokensLocked_ends.mono fun _ next _ made => ?_).leaves_within
  rw [made]
  exact revokeTokensIssuedBy_within

theorem within_botRepoGrants {s : State} {botRepoGrants : HashMap (Uuid × Uuid) BotRepoAccess} :
    Within [] s { s with botRepoGrants } := fun t _ => by
  cases t <;> first | rfl | exact ⟨rfl, rfl, rfl⟩

theorem grantBotRepository_within {owner repo : String} {access : BotRepoAccess} :
    Within [] core.state
      ((grantBotRepositoryLocked actor botId owner repo access now core).leaves core).state := by
  refine (grantBotRepositoryLocked_ends.mono fun _ next _ made => ?_).leaves_within
  obtain ⟨grants, rfl⟩ := made
  exact within_botRepoGrants

theorem revokeBotRepositoryGrant_within {owner repo : String} :
    Within [] core.state
      ((revokeBotRepositoryGrantLocked actor botId owner repo core).leaves core).state := by
  refine (revokeBotRepositoryGrantLocked_ends.mono fun _ next _ made => ?_).leaves_within
  obtain ⟨grants, rfl⟩ := made
  exact within_botRepoGrants

theorem reserveBotOperation_within {operation requestKey bodyDigest : String} :
    Within [.botOperations] core.state
      ((reserveBotOperationLocked botId operation requestKey bodyDigest now core).leaves core).state := by
  refine (reserveBotOperationLocked_ends.mono fun _ next _ made => ?_).leaves_within
  obtain ⟨-, rfl⟩ | ⟨record, -, -, -, -, -, -, rfl⟩ := made
  · exact pruneBotOperations_within
  · exact pruneBotOperations_within.trans (withOperations_within _)

theorem finishBotOperation_within {operation requestKey result : String} :
    Within [.botOperations] core.state
      ((finishBotOperationLocked botId operation requestKey result core).leaves core).state := by
  refine (finishBotOperationLocked_ends.mono fun _ next _ made => ?_).leaves_within
  obtain ⟨existing, -, -, rfl⟩ := made
  exact withOperations_within _

end Outcomes

/-- A section writes its call's tables only. -/
theorem Section.within {call : Call} {core core' : ForgeCore} {reply : Option call.Reply}
    (moved : Section call core core' reply) : Within call.tables core.state core'.state := by
  cases moved with
  | audit audited entry => exact within_refl
  | refused audited => exact within_refl
  | createUser => exact createUser_within
  | ensureUser => exact createUser_within
  | createAccount => exact createAccount_within
  | createTemporary =>
    show Within (.users :: credentialTables) _ _
    exact createAccount_within.widen (by decide)
  | forceTemporary =>
    show Within (.users :: credentialTables) _ _
    exact force_within.widen (by decide)
  | resetAccountPassword => exact reset_within
  | changeAccountPassword => exact change_within
  | forcePasswordChange => exact force_within
  | transition asks answered =>
    cases call <;> cases asks <;> exact transition_within
  | issuePasswordRecovery now => exact issuePasswordRecovery_within
  | checkRecovery =>
    show Within (.recoveries :: credentialTables) _ _
    exact checkRecovery_within.widen (by decide)
  | recoverPassword checked passwordHash now => exact recoverPassword_within
  | createSession account createdAt expiresAt => exact storeSession_within
  | revokeSession => exact revokeSession_within
  | createPersonalAccessToken account createdAt expires => exact storePersonalToken_within
  | revokePersonalAccessToken => exact revokePersonalToken_within
  | createAccountInvitation teams now => exact createAccountInvitation_within
  | revokeAccountInvitation => exact revokeAccountInvitation_within
  | startAccountActivation now => exact startAccountActivation_within
  | completeAccountActivation passwordHash now => exact completeAccountActivation_within
  | createOrganization => exact createOrganization_within
  | createOrganizationAs name => exact createOrganizationAs_within
  | addOrganizationOwner => exact addOrganizationOwner_within
  | removeOrganizationOwner => exact removeOrganizationOwner_within
  | createTeam slug => exact createTeam_within
  | createTeamAs named => exact createTeamAs_within
  | addTeamMember => exact addTeamMember_within
  | removeTeamMember now => exact removeTeamMember_within
  | enrollBot account normalized now => exact storeEnrolledBot_within
  | enrollTeamBot normalized now => exact storeEnrolledBot_within
  | rotateBotKey account now => exact rotateBotKey_within
  | suspendBot => exact suspendBot_within
  | revokeBot now => exact revokeBot_within
  | exchangeBotEnrollmentKey verifiedHash now => exact exchangeBotEnrollmentKey_within
  | rotateBotRefreshToken now => exact rotateBotRefreshToken_within
  | rotateBotRefreshTokenIdempotent now pruned prunes =>
    show Within [.bots, .botRefresh, .botOperations] _ _
    rw [prunes]
    exact (pruneForRefresh_within.widen (by decide)).trans
      (@rotateIdempotent_within { core with state := _ } now _ _ _ _ _)
  | issueBotAccessToken text days now => exact issueBotAccessToken_within
  | revokeBotAccessToken now => exact revokeBotAccessToken_within
  | authenticateBotAccessToken now => exact noteTokenUse_within
  | grantBotRepository now => exact grantBotRepository_within
  | revokeBotRepositoryGrant => exact revokeBotRepositoryGrant_within
  | revokeIssuedTeamBotTokens now => exact revokeIssued_within
  | noteBotObservation now => exact noteBotObservation_within
  | reserveBotOperation now plain => exact reserveBotOperation_within
  | finishBotOperation plain => exact finishBotOperation_within

end Sections

end Jeryu.Auth
