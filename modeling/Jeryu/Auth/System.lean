import Jeryu.Auth.Operations
import Jeryu.Auth.Invitations
import Jeryu.Auth.TeamBots
import Jeryu.Auth.PasswordRecovery
import Jeryu.Auth.Sessions
import Jeryu.Library.TaskPool

namespace Jeryu.Auth

open Jeryu.Core KeyedMap LockProgram

/-- The account, bot and team methods of the core, with what their callers and the outside
    answer them. -/
inductive Call where
  | createUser (request : CreateUserRequest)
  | ensureUser (login : String)
  | createAccount (login password : String) (role : UserRole) (hash : Except ForgeError String)
  | createTemporaryAccount (login password : String) (role : UserRole)
      (hash : Except ForgeError String)
  | authenticatePassword (login password : String)
  | resetAccountPassword (login newPassword : String) (salt : Except ForgeError String)
  | changeAccountPassword (login currentPassword newPassword : String)
      (salt : Except ForgeError String)
  | forcePasswordChange (login : String) (forced : Bool)
  | disableAccount (login : String)
  | lockAccount (login : String)
  | reactivateAccount (login : String)
  | markAccountMfaActive (login : String)
  | issuePasswordRecovery (login : String) (random : Except ForgeError Unit)
  | recoverPassword (presented : PresentedRecovery) (newPassword : String)
      (salt : Except ForgeError String)
  | createSession (login : String) (ttl : Int) (random : Except ForgeError Unit)
  | sessionForToken (token : Secret)
  | revokeSession (token : Secret)
  | createPersonalAccessToken (login name : String) (expiresAt : Option DateTime)
      (random : Except ForgeError Unit)
  | revokePersonalAccessToken (login : String) (id : Uuid)
  | authenticatePersonalAccessToken (token : Secret)
  | createAccountInvitation (issuerPrincipal canonicalLogin displayName : String)
      (intendedBindings : InvitationBindings) (expiresAt : DateTime) (bootstrapOwner : Bool)
      (random : Except ForgeError Unit)
  | revokeAccountInvitation (id : Uuid)
  | startAccountActivation (canonicalLogin : String) (activationSecret : Secret)
      (random : Except ForgeError Unit)
  | completeAccountActivation (challenge : Secret) (password : String)
      (salt : Except ForgeError String)
  | createOrganization (request : CreateOrganizationRequest)
  | createOrganizationAs (actor login : String) (displayName : Option String)
      (owners : List String)
  | addOrganizationOwner (actor org login : String)
  | removeOrganizationOwner (actor org login : String)
  | createTeam (org : String) (request : CreateTeamRequest)
  | createTeamAs (actor org name : String) (slug : Option String) (members : List String)
  | addTeamMember (actor org team login : String)
  | removeTeamMember (actor org team login : String)
  | enrollBot (actor slug displayName : String) (kind : BotKind) (reach : BotReach) (env : String)
      (random : Except ForgeError Unit)
  | enrollTeamBot (actor org stewardTeam slug displayName : String) (kind : BotKind)
      (reach : BotReach) (random : Except ForgeError Unit)
  | rotateBotKey (actor : String) (botId : Uuid) (random : Except ForgeError Unit)
  | suspendBot (actor : String) (botId : Uuid)
  | revokeBot (actor : String) (botId : Uuid)
  | exchangeBotEnrollmentKey (presented : PresentedKey) (random : Except ForgeError Unit)
  | rotateBotRefreshToken (refreshToken : Secret) (random : Except ForgeError Unit)
  | rotateBotRefreshTokenIdempotent (vaultKey : Option String) (refreshToken : Secret)
      (requestKey bodyDigest : String) (random : Except ForgeError Unit)
  | authenticateBotAccess (botId : Uuid) (generation : Nat) (keyId : Secret)
  | authorizeBot (call : BotCall)
  | authorizeBotRefWrite (call : BotCall) (reference : String)
  | issueBotAccessToken (actor : String) (botId : Uuid) (label : Option String)
      (ttlDays : Option Nat) (random : Except ForgeError Unit)
  | revokeBotAccessToken (actor : String) (botId : Uuid) (tokenId : Secret)
  | authenticateBotAccessToken (presented : Option Secret)
  | grantBotRepository (actor : String) (botId : Uuid) (owner repo : String)
      (access : BotRepoAccess)
  | revokeBotRepositoryGrant (actor : String) (botId : Uuid) (owner repo : String)
  | revokeIssuedTeamBotTokens (actor : String)
  | noteBotObservation (botId : Uuid) (observation : BotObservation)
  | reserveBotOperation (botId : Uuid) (operation requestKey bodyDigest : String)
  | finishBotOperation (botId : Uuid) (operation requestKey result : String) (isJson : Bool)

def Call.Answer : Call → Type
  | createUser .. | ensureUser .. => User
  | createAccount .. | createTemporaryAccount .. | authenticatePassword ..
  | resetAccountPassword .. | changeAccountPassword .. | forcePasswordChange ..
  | disableAccount .. | lockAccount .. | reactivateAccount .. | markAccountMfaActive ..
  | completeAccountActivation .. => AccountSummary
  | issuePasswordRecovery .. => PasswordRecoveryIssued
  | recoverPassword .. => PasswordRecoveryReceipt
  | createSession .. => SessionReceipt
  | sessionForToken .. => Option (AccountSummary × WebSession)
  | createPersonalAccessToken .. => PersonalAccessTokenReceipt
  | authenticatePersonalAccessToken .. => Option AccountSummary
  | revokePersonalAccessToken .. | revokeAccountInvitation .. => Bool
  | createAccountInvitation .. => AccountInvitationReceipt
  | startAccountActivation .. => ActivationStartReceipt
  | createOrganization .. | createOrganizationAs .. | addOrganizationOwner ..
  | removeOrganizationOwner .. => Organization
  | createTeam .. | createTeamAs .. | addTeamMember .. | removeTeamMember .. => Team
  | enrollBot .. | enrollTeamBot .. | rotateBotKey .. => BotEnrollment
  | suspendBot .. | revokeBot .. | authenticateBotAccess .. | authorizeBot ..
  | authorizeBotRefWrite .. => BotSummary
  | exchangeBotEnrollmentKey .. | rotateBotRefreshToken ..
  | rotateBotRefreshTokenIdempotent .. => BotSession
  | issueBotAccessToken .. => BotAccessTokenIssued
  | revokeBotAccessToken .. => BotAccessTokenSummary
  | authenticateBotAccessToken .. => BotAccessTokenAuth
  | grantBotRepository .. => BotRepoGrant
  | reserveBotOperation .. => BotOperationGate
  | revokeIssuedTeamBotTokens .. => Nat
  | revokeSession .. | revokeBotRepositoryGrant .. | noteBotObservation ..
  | finishBotOperation .. => Unit

abbrev Call.Reply (call : Call) : Type := Except Failure call.Answer

def Call.method : (call : Call) → Method call.Answer
  | .createUser request => Core.createUser request
  | .ensureUser login => Core.ensureUser login
  | .createAccount login password role hash => Core.createAccount login password role hash
  | .createTemporaryAccount login password role hash =>
    Core.createTemporaryAccount login password role hash
  | .authenticatePassword login password => Core.authenticatePassword login password
  | .resetAccountPassword login newPassword salt => Core.resetAccountPassword login newPassword salt
  | .changeAccountPassword login currentPassword newPassword salt =>
    Core.changeAccountPassword login currentPassword newPassword salt
  | .forcePasswordChange login forced => Core.forcePasswordChange login forced
  | .disableAccount login => Core.disableAccount login
  | .lockAccount login => Core.lockAccount login
  | .reactivateAccount login => Core.reactivateAccount login
  | .markAccountMfaActive login => Core.markAccountMfaActive login
  | .issuePasswordRecovery login random => Core.issuePasswordRecovery login random
  | .recoverPassword presented newPassword salt => Core.recoverPassword presented newPassword salt
  | .createSession login ttl random => Core.createSessionWithTtl login ttl random
  | .sessionForToken token => Core.sessionForToken token
  | .revokeSession token => Core.revokeSession token
  | .createPersonalAccessToken login name expiresAt random =>
    Core.createPersonalAccessToken login name expiresAt random
  | .revokePersonalAccessToken login id => Core.revokePersonalAccessToken login id
  | .authenticatePersonalAccessToken token => Core.authenticatePersonalAccessToken token
  | .createAccountInvitation issuer login displayName bindings expiresAt bootstrapOwner random =>
    Core.createAccountInvitationInner issuer login displayName bindings expiresAt bootstrapOwner random
  | .revokeAccountInvitation id => Core.revokeAccountInvitation id
  | .startAccountActivation login activationSecret random =>
    Core.startAccountActivation login activationSecret random
  | .completeAccountActivation challenge password salt =>
    Core.completeAccountActivation challenge password salt
  | .createOrganization request => Core.createOrganization request
  | .createOrganizationAs actor login displayName owners =>
    Core.createOrganizationAs actor login displayName owners
  | .addOrganizationOwner actor org login => Core.addOrganizationOwner actor org login
  | .removeOrganizationOwner actor org login => Core.removeOrganizationOwner actor org login
  | .createTeam org request => Core.createTeam org request
  | .createTeamAs actor org name slug members => Core.createTeamAs actor org name slug members
  | .addTeamMember actor org team login => Core.addTeamMember actor org team login
  | .removeTeamMember actor org team login => Core.removeTeamMember actor org team login
  | .enrollBot actor slug displayName kind reach env random =>
    Core.enrollBotWithEnv actor slug displayName kind reach env random
  | .enrollTeamBot actor org stewardTeam slug displayName kind reach random =>
    Core.enrollTeamBot actor org stewardTeam slug displayName kind reach random
  | .rotateBotKey actor botId random => Core.rotateBotKey actor botId random
  | .suspendBot actor botId => Core.suspendBot actor botId
  | .revokeBot actor botId => Core.revokeBot actor botId
  | .exchangeBotEnrollmentKey presented random => Core.exchangeBotEnrollmentKey presented random
  | .rotateBotRefreshToken refreshToken random => Core.rotateBotRefreshToken refreshToken random
  | .rotateBotRefreshTokenIdempotent vaultKey refreshToken requestKey bodyDigest random =>
    Core.rotateBotRefreshTokenIdempotent vaultKey refreshToken requestKey bodyDigest random
  | .authenticateBotAccess botId generation keyId => Core.authenticateBotAccess botId generation keyId
  | .authorizeBot call => Core.authorizeBot call
  | .authorizeBotRefWrite call reference => Core.authorizeBotRefWrite call reference
  | .issueBotAccessToken actor botId label ttlDays random =>
    Core.issueBotAccessToken actor botId label ttlDays random
  | .revokeBotAccessToken actor botId tokenId => Core.revokeBotAccessToken actor botId tokenId
  | .authenticateBotAccessToken presented => Core.authenticateBotAccessToken presented
  | .grantBotRepository actor botId owner repo access =>
    Core.grantBotRepository actor botId owner repo access
  | .revokeBotRepositoryGrant actor botId owner repo =>
    Core.revokeBotRepositoryGrant actor botId owner repo
  | .revokeIssuedTeamBotTokens actor => Core.revokeIssuedTeamBotTokens actor
  | .noteBotObservation botId observation => Core.noteBotObservation botId observation
  | .reserveBotOperation botId operation requestKey bodyDigest =>
    Core.reserveBotOperation botId operation requestKey bodyDigest
  | .finishBotOperation botId operation requestKey result isJson =>
    Core.finishBotOperation botId operation requestKey result isJson

/-- What the clock, the environment, SQLite and the repository methods may do between two
    sections. A profile a repository method writes is an `ensureUser` of its own. `ticks` is what is
    known of the clock. -/
structure Ambient (ticks : DateTime → DateTime → Prop) (core core' : ForgeCore) : Prop where
  uuids : core.uuids ≤ core'.uuids
  clock : ticks core.now core'.now
  users : core'.state.users = core.state.users
  accounts : core'.state.accounts = core.state.accounts
  bots : core'.state.bots = core.state.bots
  organizations : core'.state.organizations = core.state.organizations
  auth : core'.state.auth = core.state.auth

/-- A clock that may be set to anything. -/
def anyTicks (_ _ : DateTime) : Prop := True

def accounts (ticks : DateTime → DateTime → Prop) : System ForgeCore Call.Reply where
  program call := call.method.run
  ambient := Ambient ticks
  admits _ _ := True

abbrev Pool : Type := Config ForgeCore Call.Reply

/-- No condition on a section. -/
def anySection (_ : Call) (_ : ForgeCore → ForgeCore) (_ : ForgeCore) : Prop := True

/-- An empty store, no call under way. -/
def Pool.Initial (pool : Pool) : Prop := pool.shared.state = .empty ∧ pool.tasks = []

/-- Any interleaving of calls, under any clock. -/
abbrev Runs (pool pool' : Pool) : Prop := Run (accounts anyTicks) anySection pool pool'

def Pool.Reachable (pool : Pool) : Prop := ∃ start : Pool, start.Initial ∧ Runs start pool

end Jeryu.Auth
