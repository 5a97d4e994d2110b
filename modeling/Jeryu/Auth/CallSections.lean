import Jeryu.Auth.System
import Jeryu.Core.CallSections

namespace Jeryu.Auth

open Jeryu.Core KeyedMap LockProgram Method

/-- The answer of a section that may fail in spite of what it changed. -/
def Outcome.ends {α : Type} (outcome : Core.Outcome (Except Failure α)) (core : ForgeCore) :
    Except Failure α := (outcome.answers core).bind id

/-- The calls that append a receipt in a section of its own. -/
inductive Call.Audited : Call → Prop where
  | createOrganizationAs {actor login displayName owners} :
      Audited (.createOrganizationAs actor login displayName owners)
  | addOrganizationOwner {actor org login} : Audited (.addOrganizationOwner actor org login)
  | removeOrganizationOwner {actor org login} : Audited (.removeOrganizationOwner actor org login)
  | createTeamAs {actor org name slug members} : Audited (.createTeamAs actor org name slug members)
  | addTeamMember {actor org team login} : Audited (.addTeamMember actor org team login)
  | removeTeamMember {actor org team login} : Audited (.removeTeamMember actor org team login)
  | enrollBot {actor slug displayName kind reach env random} :
      Audited (.enrollBot actor slug displayName kind reach env random)
  | enrollTeamBot {actor org stewardTeam slug displayName kind reach random} :
      Audited (.enrollTeamBot actor org stewardTeam slug displayName kind reach random)
  | rotateBotKey {actor botId random} : Audited (.rotateBotKey actor botId random)
  | suspendBot {actor botId} : Audited (.suspendBot actor botId)
  | revokeBot {actor botId} : Audited (.revokeBot actor botId)
  | exchangeBotEnrollmentKey {presented random} :
      Audited (.exchangeBotEnrollmentKey presented random)
  | rotateBotRefreshToken {refreshToken random} :
      Audited (.rotateBotRefreshToken refreshToken random)
  | rotateBotRefreshTokenIdempotent {vaultKey refreshToken requestKey bodyDigest random} :
      Audited (.rotateBotRefreshTokenIdempotent vaultKey refreshToken requestKey bodyDigest random)
  | authorizeBot {call} : Audited (.authorizeBot call)
  | authorizeBotRefWrite {call reference} : Audited (.authorizeBotRefWrite call reference)
  | issueBotAccessToken {actor botId label ttlDays random} :
      Audited (.issueBotAccessToken actor botId label ttlDays random)
  | revokeBotAccessToken {actor botId tokenId} :
      Audited (.revokeBotAccessToken actor botId tokenId)
  | grantBotRepository {actor botId owner repo access} :
      Audited (.grantBotRepository actor botId owner repo access)
  | revokeBotRepositoryGrant {actor botId owner repo} :
      Audited (.revokeBotRepositoryGrant actor botId owner repo)
  | revokeIssuedTeamBotTokens {actor} : Audited (.revokeIssuedTeamBotTokens actor)

/-- The status a call asks for, and from which. -/
def Call.transition : Call → Option (String × AccountStatus × Option (List AccountStatus))
  | .disableAccount login => some (login, .disabled, none)
  | .lockAccount login => some (login, .locked, none)
  | .reactivateAccount login => some (login, .pendingMfa, some [.disabled, .locked])
  | .markAccountMfaActive login => some (login, .active, some [.pendingMfa])
  | _ => none

/-- The sections of each call under the write lock, with the answer of the call where the
    section is its last and the answer matters. -/
inductive Section : (call : Call) → ForgeCore → ForgeCore → Option call.Reply → Prop where
  | audit {call core reply} (audited : call.Audited) (entry : AuditEntry) :
      Section call core (core.logged [entry]) reply
  | refused {call core reply} (audited : call.Audited) : Section call core core reply
  | createUser {request core reply} :
      Section (.createUser request) core ((createUserLocked request core).leaves core) reply
  | ensureUser {login core reply} :
      Section (.ensureUser login) core ((createUserLocked ⟨login, none, none⟩ core).leaves core) reply
  | createAccount {login password role hash core reply} :
      Section (.createAccount login password role hash) core
        ((createAccountLocked login role hash core).leaves core) reply
  | createTemporary {login password role hash core reply} :
      Section (.createTemporaryAccount login password role hash) core
        ((createAccountLocked login role hash core).leaves core) reply
  | forceTemporary {login password role hash core reply} :
      Section (.createTemporaryAccount login password role hash) core
        ((forcePasswordChangeLocked login true core).leaves core) reply
  | resetAccountPassword {login newPassword salt core reply} :
      Section (.resetAccountPassword login newPassword salt) core
        ((resetAccountPasswordLocked login (hashPassword salt newPassword) core).leaves core) reply
  | changeAccountPassword {login currentPassword newPassword salt core} :
      Section (.changeAccountPassword login currentPassword newPassword salt) core
        ((changeAccountPasswordLocked login (hashPassword salt newPassword) core).leaves core)
        (some (Outcome.ends
          (changeAccountPasswordLocked login (hashPassword salt newPassword) core) core))
  | forcePasswordChange {login forced core reply} :
      Section (.forcePasswordChange login forced) core
        ((forcePasswordChangeLocked login forced core).leaves core) reply
  | transition {call core reply login status allowed}
      (asks : call.transition = some (login, status, allowed))
      (answered : ∀ failure, Outcome.ends (transitionAccountStatusLocked login status allowed core) core =
        .error failure → reply = some (.error failure)) :
      Section call core ((transitionAccountStatusLocked login status allowed core).leaves core) reply
  | issuePasswordRecovery {login random core reply} (now : DateTime) :
      Section (.issuePasswordRecovery login random) core
        ((issuePasswordRecoveryLocked login now core).leaves core) reply
  | checkRecovery {tokenId secret newPassword salt core reply} :
      Section (.recoverPassword (some (tokenId, secret)) newPassword salt) core
        ((checkRecoveryLocked tokenId secret core).leaves core) reply
  | recoverPassword {tokenId secret newPassword salt core reply} (checked : VerifiedSpend)
      (passwordHash : String) (now : DateTime) :
      Section (.recoverPassword (some (tokenId, secret)) newPassword salt) core
        ((recoverPasswordLocked tokenId secret checked passwordHash now core).leaves core) reply
  | createSession {login ttl random core} (account : AccountSummary) (createdAt expiresAt : DateTime) :
      Section (.createSession login ttl random) core
        ((storeSessionLocked account login createdAt expiresAt core).leaves core)
        (some ((storeSessionLocked account login createdAt expiresAt core).answers core))
  | revokeSession {token core reply} :
      Section (.revokeSession token) core ((revokeSessionLocked token core).leaves core) reply
  | createPersonalAccessToken {login name expiresAt random core} (account : AccountSummary)
      (createdAt : DateTime) (expires : Option DateTime) :
      Section (.createPersonalAccessToken login name expiresAt random) core
        ((storePersonalTokenLocked account login name createdAt expires core).leaves core)
        (some ((storePersonalTokenLocked account login name createdAt expires core).answers core))
  | revokePersonalAccessToken {login id core reply} :
      Section (.revokePersonalAccessToken login id) core
        ((revokePersonalTokenLocked login id core).leaves core) reply
  | createAccountInvitation {issuer login displayName bindings expiresAt bootstrapOwner random core
        reply} (teams : List String) (now : DateTime) :
      Section (.createAccountInvitation issuer login displayName bindings expiresAt bootstrapOwner random)
        core ((createAccountInvitationLocked issuer login displayName { bindings with teams } now
          expiresAt bootstrapOwner core).leaves core) reply
  | revokeAccountInvitation {id core reply} :
      Section (.revokeAccountInvitation id) core ((revokeAccountInvitationLocked id core).leaves core)
        reply
  | startAccountActivation {login activationSecret random core reply} (now : DateTime) :
      Section (.startAccountActivation login activationSecret random) core
        ((startAccountActivationLocked login activationSecret now core).leaves core) reply
  | completeAccountActivation {challenge password salt core reply} (passwordHash : String)
      (now : DateTime) :
      Section (.completeAccountActivation challenge password salt) core
        ((completeAccountActivationLocked (tokenHash challenge) passwordHash now core).leaves core) reply
  | createOrganization {request core reply} :
      Section (.createOrganization request) core
        ((createOrganizationLocked request core).leaves core) reply
  | createOrganizationAs {actor login displayName owners core reply} (name : Option String) :
      Section (.createOrganizationAs actor login displayName owners) core
        ((createOrganizationAsLocked actor login name owners core).leaves core) reply
  | addOrganizationOwner {actor org login core reply} :
      Section (.addOrganizationOwner actor org login) core
        ((addOrganizationOwnerLocked actor org login core).leaves core) reply
  | removeOrganizationOwner {actor org login core reply} :
      Section (.removeOrganizationOwner actor org login) core
        ((removeOrganizationOwnerLocked actor org login core).leaves core) reply
  | createTeam {org request core reply} (slug : String) :
      Section (.createTeam org request) core ((createTeamLocked org slug request core).leaves core) reply
  | createTeamAs {actor org name slug members core reply} (named : String) :
      Section (.createTeamAs actor org name slug members) core
        ((createTeamAsLocked actor org name named members core).leaves core) reply
  | addTeamMember {actor org team login core reply} :
      Section (.addTeamMember actor org team login) core
        ((addTeamMemberLocked actor org team login core).leaves core) reply
  | removeTeamMember {actor org team login core reply} (now : DateTime) :
      Section (.removeTeamMember actor org team login) core
        ((removeTeamMemberLocked actor org team login now core).leaves core) reply
  | enrollBot {actor slug displayName kind reach env random core reply} (account : AccountSummary)
      (normalized : BotReach) (now : DateTime) :
      Section (.enrollBot actor slug displayName kind reach env random) core
        ((storeEnrolledBotLocked (.fresh account.login .user none slug displayName kind normalized
          account.authEpoch now) env core).leaves core) reply
  | enrollTeamBot {actor org stewardTeam slug displayName kind reach random core reply}
      (normalized : BotReach) (now : DateTime) :
      Section (.enrollTeamBot actor org stewardTeam slug displayName kind reach random) core
        ((storeEnrolledBotLocked (.fresh org .organization (some stewardTeam) slug displayName kind
          normalized 0 now) "live" core).leaves core) reply
  | rotateBotKey {actor botId random core reply} (account : AccountSummary) (now : DateTime) :
      Section (.rotateBotKey actor botId random) core
        ((rotateBotKeyLocked actor account botId now core).leaves core) reply
  | suspendBot {actor botId core reply} :
      Section (.suspendBot actor botId) core ((suspendBotLocked actor botId core).leaves core) reply
  | revokeBot {actor botId core reply} (now : DateTime) :
      Section (.revokeBot actor botId) core ((revokeBotLocked actor botId now core).leaves core) reply
  | exchangeBotEnrollmentKey {keyId secret random core reply} (verifiedHash : Digest) (now : DateTime) :
      Section (.exchangeBotEnrollmentKey (some (keyId, secret)) random) core
        ((exchangeBotEnrollmentKeyLocked keyId verifiedHash random now core).leaves core) reply
  | rotateBotRefreshToken {refreshToken random core reply} (now : DateTime) :
      Section (.rotateBotRefreshToken refreshToken random) core
        ((rotateBotRefreshTokenLocked (tokenHash refreshToken) random now core).leaves core) reply
  | rotateBotRefreshTokenIdempotent {vaultKey refreshToken requestKey bodyDigest random core reply}
      (now : DateTime) (pruned : ForgeCore) (prunes : pruned =
        { core with state := pruneForRefresh (tokenHash refreshToken) now core.state }) :
      Section (.rotateBotRefreshTokenIdempotent vaultKey refreshToken requestKey bodyDigest random) core
        ((rotateIdempotentLocked vaultKey (tokenHash refreshToken) requestKey bodyDigest random now
          pruned).leaves pruned) reply
  | issueBotAccessToken {actor botId label ttlDays random core reply} (text : Option String)
      (days : Nat) (now : DateTime) :
      Section (.issueBotAccessToken actor botId label ttlDays random) core
        ((issueBotAccessTokenLocked actor botId text days now core).leaves core) reply
  | revokeBotAccessToken {actor botId tokenId core reply} (now : DateTime) :
      Section (.revokeBotAccessToken actor botId tokenId) core
        ((revokeBotAccessTokenLocked actor botId tokenId now core).leaves core) reply
  | authenticateBotAccessToken {token core reply} (now : DateTime) :
      Section (.authenticateBotAccessToken (some token)) core
        ((noteTokenUseLocked token now core).leaves core) reply
  | grantBotRepository {actor botId owner repo access core reply} (now : DateTime) :
      Section (.grantBotRepository actor botId owner repo access) core
        ((grantBotRepositoryLocked actor botId owner repo access now core).leaves core) reply
  | revokeBotRepositoryGrant {actor botId owner repo core reply} :
      Section (.revokeBotRepositoryGrant actor botId owner repo) core
        ((revokeBotRepositoryGrantLocked actor botId owner repo core).leaves core) reply
  | revokeIssuedTeamBotTokens {actor core reply} (now : DateTime) :
      Section (.revokeIssuedTeamBotTokens actor) core
        ((revokeIssuedTeamBotTokensLocked actor now core).leaves core) reply
  | noteBotObservation {botId observation core reply} (now : DateTime) :
      Section (.noteBotObservation botId observation) core
        ((noteBotObservationLocked botId observation now core).leaves core) reply
  | reserveBotOperation {botId operation requestKey bodyDigest core reply} (now : DateTime)
      (plain : operation ≠ refreshOperation) :
      Section (.reserveBotOperation botId operation requestKey bodyDigest) core
        ((reserveBotOperationLocked botId operation requestKey bodyDigest now core).leaves core) reply
  | finishBotOperation {botId operation requestKey result isJson core reply}
      (plain : operation ≠ refreshOperation) :
      Section (.finishBotOperation botId operation requestKey result isJson) core
        ((finishBotOperationLocked botId operation requestKey result core).leaves core) reply

section Parts

variable {call : Call} {α β : Type}

theorem writes_settled {f : ForgeCore → Core.Outcome (Except Failure α)}
    {R : ForgeCore → ForgeCore → Option (Except Failure α) → Prop}
    (moved : ∀ core, R core ((f core).leaves core) (some (Outcome.ends (f core) core))) :
    (Method.settled f).Writes R := ⟨fun core _ => ⟨moved core, True.intro⟩⟩

/-- A method whose answer is looked at without another section. -/
theorem writes_recovered {method : Method α}
    {after : Except Failure α → Program ForgeCore (Except Failure β)}
    {T : ForgeCore → ForgeCore → Prop} (writes : method.Writes fun core core' _ => T core core')
    (ends : ∀ result, ∃ answer, after result = .done answer) :
    Method.Writes (ExceptT.mk (method.run >>= after)) fun core core' _ => T core core' := by
  refine ⟨Program.Meets.bind (writes.meets.mono (fun _ h => h) (fun _ _ _ _ h _ => h) fun _ h => h)
    fun result _ => ?_⟩
  obtain ⟨answer, same⟩ := ends result
  rw [same]
  exact True.intro

theorem appendAuditAs_writes (audited : call.Audited) (actor action subject : String)
    (phase : AuditPhase) :
    (appendAuditAs actor action subject phase).Writes
      fun core core' _ => ∀ reply, Section call core core' reply := by
  refine writes_locked fun core reply => ?_
  cases core.auditReceipt actor action subject phase (.other (.object [])) with
  | ok entry => exact .audit audited entry
  | error _ => exact .refused audited

/-- A receipt, and then the answer. -/
theorem audit_then (audited : call.Audited) (actor action subject : String) (phase : AuditPhase)
    (result : Method call.Answer) (rest : result.Writes (Section call)) :
    (appendAuditAs actor action subject phase >>= fun _ => result).Writes (Section call) :=
  (appendAuditAs_writes audited actor action subject phase).bind fun _ => rest

theorem requireActiveAccount_readOnly (login : String) : (requireActiveAccount login).ReadOnly :=
  (getAccount_readOnly login).bind fun _ => writes_unless (writes_pure _)

theorem audited_writes {actor action subject : String} {change : Method (call.Answer × Bool)}
    (audits : call.Audited)
    (changed : change.Writes fun core core' _ => ∀ reply, Section call core core' reply) :
    (audited actor action subject change).Writes (Section call) := by
  unfold audited
  refine changed.bind fun stored => ?_
  obtain ⟨stored, changed⟩ := stored
  exact writes_ite ((appendAuditAs_writes audits ..).bind fun _ => writes_pure _) (writes_pure _)

theorem requireReadableRepo_readOnly (actor owner repo : String) :
    (requireReadableRepo actor owner repo).ReadOnly :=
  (canonicalRepository_readOnly owner repo).bind fun _ => writes_reading _

theorem normalizeRepos_readOnly (actor : String) (repos seen : List BotRepoRef) :
    (normalizeRepos actor repos seen).ReadOnly := by
  induction repos generalizing seen with
  | nil => exact writes_pure _
  | cons repo rest ih =>
    unfold normalizeRepos
    exact (requireReadableRepo_readOnly actor _ _).bind fun _ => ih _

theorem validateTask_readOnly (repo : BotRepoRef) (kind : BotTaskKind) (taskId : String) :
    (validateTask repo kind taskId).ReadOnly := by
  unfold validateTask
  refine writes_unless ?_
  cases kind with
  | branch => exact writes_ite (writes_throw _) (writes_pure _)
  | issue =>
    dsimp only
    split
    · exact writes_throw _
    · exact Writes.bind (writes_reading _) fun _ => writes_pure _
  | pull =>
    dsimp only
    split
    · exact writes_throw _
    · exact Writes.bind (writes_reading _) fun _ => writes_pure _

theorem normalizeReach_readOnly (actor : String) (reach : BotReach) :
    (normalizeReach actor reach).ReadOnly := by
  unfold normalizeReach
  refine Writes.bind (writes_ofExcept _) fun _ => ?_
  cases reach with
  | general refs => exact writes_pure _
  | owners owners refs =>
    exact writes_unless (Writes.bind (writes_reading _) fun _ => writes_pure _)
  | repositories repos refs =>
    exact writes_unless ((normalizeRepos_readOnly actor repos []).bind fun _ => writes_pure _)
  | task repo taskKind taskId refs =>
    exact (requireReadableRepo_readOnly actor _ _).bind fun _ =>
      (validateTask_readOnly _ _ _).bind fun _ => writes_pure _

end Parts

section Accounts

theorem createUser_writes {request : CreateUserRequest} :
    (Core.createUser request).Writes (Section (.createUser request)) := by
  unfold Core.createUser
  exact (writes_ofExcept _).bind fun _ => writes_locked fun _ => .createUser

theorem ensureUser_writes {login : String} :
    (Core.ensureUser login).Writes (Section (.ensureUser login)) := by
  unfold Core.ensureUser Core.createUser
  refine (writes_reading _).bind fun found => ?_
  cases found with
  | some user => exact writes_pure user
  | none =>
    refine Writes.mono (R := fun core core' _ => ∀ reply, Section (.ensureUser login) core core' reply)
      (Writes.expect ?_) fun _ _ _ moved => moved _
    exact (writes_ofExcept _).bind fun _ => writes_locked fun _ _ => .ensureUser

theorem createAccount_writes {login password : String} {role : UserRole}
    {hash : Except ForgeError String} :
    (Core.createAccount login password role hash).Writes
      (Section (.createAccount login password role hash)) := by
  unfold Core.createAccount
  exact (writes_ofExcept _).bind fun _ => (writes_ofExcept _).bind
    fun _ => writes_locked fun _ => .createAccount

theorem createTemporaryAccount_writes {login password : String} {role : UserRole}
    {hash : Except ForgeError String} :
    (Core.createTemporaryAccount login password role hash).Writes
      (Section (.createTemporaryAccount login password role hash)) := by
  unfold Core.createTemporaryAccount Core.createAccount
  have create : (do
      Method.ofExcept (requireLogin login)
      Method.ofExcept (requirePassword password)
      Method.locked (createAccountLocked login role hash) : Method AccountSummary).Writes
      fun core core' _ => ∀ reply, Section (.createTemporaryAccount login password role hash) core core'
        reply :=
    (writes_ofExcept _).bind fun _ => (writes_ofExcept _).bind
      fun _ => writes_locked fun _ _ => .createTemporary
  refine create.bind fun account => Writes.bind (writes_settled fun _ _ => .forceTemporary) fun _ => ?_
  refine ReadOnly.writes (writes_recovered (getAccount_readOnly login) fun result => ?_)
  cases result <;> exact ⟨_, rfl⟩

theorem resetAccountPassword_writes {login newPassword : String} {salt : Except ForgeError String} :
    (Core.resetAccountPassword login newPassword salt).Writes
      (Section (.resetAccountPassword login newPassword salt)) := by
  unfold Core.resetAccountPassword
  exact (writes_ofExcept _).bind fun _ => writes_settled fun _ => .resetAccountPassword

theorem changeAccountPassword_writes {login currentPassword newPassword : String}
    {salt : Except ForgeError String} :
    (Core.changeAccountPassword login currentPassword newPassword salt).Writes
      (Section (.changeAccountPassword login currentPassword newPassword salt)) := by
  unfold Core.changeAccountPassword
  exact (writes_ofExcept _).bind fun _ => (writes_reading _).bind
    fun _ => writes_settled fun _ => .changeAccountPassword

theorem forcePasswordChange_writes {login : String} {forced : Bool} :
    (Core.forcePasswordChange login forced).Writes (Section (.forcePasswordChange login forced)) := by
  unfold Core.forcePasswordChange
  exact writes_settled fun _ => .forcePasswordChange

theorem transition_writes {login : String} {status : AccountStatus}
    {allowed : Option (List AccountStatus)}
    {R : ForgeCore → ForgeCore → Option (Except Failure AccountSummary) → Prop}
    (moved : ∀ core reply, (∀ failure,
      Outcome.ends (transitionAccountStatusLocked login status allowed core) core = .error failure →
        reply = some (.error failure)) →
      R core ((transitionAccountStatusLocked login status allowed core).leaves core) reply) :
    (transitionAccountStatus login status allowed).Writes R := by
  unfold transitionAccountStatus
  exact writes_settled fun core => moved core _ fun _ failed => congrArg some failed

theorem issuePasswordRecovery_writes {login : String} {random : Except ForgeError Unit} :
    (Core.issuePasswordRecovery login random).Writes (Section (.issuePasswordRecovery login random)) := by
  unfold Core.issuePasswordRecovery
  exact writes_unless ((writes_ofExcept _).bind fun _ => utcNow_readOnly.bind
    fun now => writes_settled fun _ => .issuePasswordRecovery now)

theorem recoverPassword_writes {presented : PresentedRecovery} {newPassword : String}
    {salt : Except ForgeError String} :
    (Core.recoverPassword presented newPassword salt).Writes
      (Section (.recoverPassword presented newPassword salt)) := by
  unfold Core.recoverPassword
  refine (writes_ofExcept _).bind fun _ => ?_
  cases presented with
  | none => exact writes_throw _
  | some secret =>
    obtain ⟨tokenId, secret⟩ := secret
    have check : (Method.locked (checkRecoveryLocked tokenId secret)).Writes fun core core' _ =>
        ∀ reply, Section (.recoverPassword (some (tokenId, secret)) newPassword salt) core core' reply :=
      writes_locked fun _ _ => .checkRecovery
    refine Writes.bind (writes_recovered check fun result => ?_) fun checked => ?_
    · rcases result with failure | _ | checked <;> exact ⟨_, rfl⟩
    · exact (writes_ofExcept _).bind fun passwordHash => utcNow_readOnly.bind
        fun now => writes_settled fun _ => .recoverPassword checked passwordHash now

theorem createSession_writes {login : String} {ttl : Int} {random : Except ForgeError Unit} :
    (Core.createSessionWithTtl login ttl random).Writes (Section (.createSession login ttl random)) := by
  unfold Core.createSessionWithTtl
  refine writes_unless ((requireActiveAccount_readOnly login).bind fun account => ?_)
  refine (writes_ofExcept _).bind fun _ => utcNow_readOnly.bind fun createdAt => writes_unless ?_
  exact writes_locked fun _ => .createSession account createdAt _

theorem createPersonalAccessToken_writes {login name : String} {expiresAt : Option DateTime}
    {random : Except ForgeError Unit} :
    (Core.createPersonalAccessToken login name expiresAt random).Writes
      (Section (.createPersonalAccessToken login name expiresAt random)) := by
  unfold Core.createPersonalAccessToken
  refine (requireActiveAccount_readOnly login).bind fun account => (writes_ofExcept _).bind fun _ => ?_
  refine utcNow_readOnly.bind fun now => (writes_ofExcept _).bind fun expires => ?_
  exact (writes_ofExcept _).bind fun _ => writes_locked
    fun _ => .createPersonalAccessToken account now expires

theorem revokePersonalAccessToken_writes {login : String} {id : Uuid} :
    (Core.revokePersonalAccessToken login id).Writes (Section (.revokePersonalAccessToken login id)) := by
  unfold Core.revokePersonalAccessToken
  exact (getAccount_readOnly login).bind fun _ => writes_locked fun _ => .revokePersonalAccessToken

theorem createAccountInvitation_writes {issuer login displayName : String}
    {bindings : InvitationBindings} {expiresAt : DateTime} {bootstrapOwner : Bool}
    {random : Except ForgeError Unit} :
    (Core.createAccountInvitationInner issuer login displayName bindings expiresAt bootstrapOwner
      random).Writes
      (Section (.createAccountInvitation issuer login displayName bindings expiresAt bootstrapOwner
        random)) := by
  unfold Core.createAccountInvitationInner
  refine (writes_ofExcept _).bind fun _ => (writes_ofExcept _).bind fun _ => ?_
  refine (writes_ofExcept _).bind fun _ => (writes_ofExcept _).bind fun teams => ?_
  refine utcNow_readOnly.bind fun now => writes_unless (writes_unless ?_)
  exact (writes_ofExcept _).bind fun _ => writes_locked fun _ => .createAccountInvitation teams now

theorem startAccountActivation_writes {login : String} {activationSecret : Secret}
    {random : Except ForgeError Unit} :
    (Core.startAccountActivation login activationSecret random).Writes
      (Section (.startAccountActivation login activationSecret random)) := by
  unfold Core.startAccountActivation
  exact writes_unless ((writes_ofExcept _).bind fun _ => utcNow_readOnly.bind
    fun now => writes_settled fun _ => .startAccountActivation now)

theorem completeAccountActivation_writes {challenge : Secret} {password : String}
    {salt : Except ForgeError String} :
    (Core.completeAccountActivation challenge password salt).Writes
      (Section (.completeAccountActivation challenge password salt)) := by
  unfold Core.completeAccountActivation
  exact (writes_ofExcept _).bind fun _ => (writes_ofExcept _).bind fun passwordHash =>
    utcNow_readOnly.bind fun now => writes_settled fun _ => .completeAccountActivation passwordHash now

end Accounts

section Organizations

theorem createOrganization_writes {request : CreateOrganizationRequest} :
    (Core.createOrganization request).Writes (Section (.createOrganization request)) := by
  unfold Core.createOrganization
  exact (writes_ofExcept _).bind fun _ => writes_locked fun _ => .createOrganization

theorem createOrganizationAs_writes {actor login : String} {displayName : Option String}
    {owners : List String} :
    (Core.createOrganizationAs actor login displayName owners).Writes
      (Section (.createOrganizationAs actor login displayName owners)) := by
  unfold Core.createOrganizationAs
  refine (writes_ofExcept _).bind fun _ => (writes_ofExcept _).bind fun name => ?_
  refine (writes_locked fun _ _ => .createOrganizationAs name).bind fun _ => ?_
  exact audit_then .createOrganizationAs _ _ _ _ _ (writes_pure _)

theorem addOrganizationOwner_writes {actor org login : String} :
    (Core.addOrganizationOwner actor org login).Writes
      (Section (.addOrganizationOwner actor org login)) :=
  @audited_writes (.addOrganizationOwner actor org login) _ _ _ _ .addOrganizationOwner
    (writes_locked fun _ _ => .addOrganizationOwner)

theorem removeOrganizationOwner_writes {actor org login : String} :
    (Core.removeOrganizationOwner actor org login).Writes
      (Section (.removeOrganizationOwner actor org login)) :=
  @audited_writes (.removeOrganizationOwner actor org login) _ _ _ _ .removeOrganizationOwner
    (writes_locked fun _ _ => .removeOrganizationOwner)

theorem createTeam_writes {org : String} {request : CreateTeamRequest} :
    (Core.createTeam org request).Writes (Section (.createTeam org request)) := by
  unfold Core.createTeam
  exact (writes_ofExcept _).bind fun _ => (writes_ofExcept _).bind
    fun _ => writes_locked fun _ => .createTeam _

theorem createTeamAs_writes {actor org name : String} {slug : Option String} {members : List String} :
    (Core.createTeamAs actor org name slug members).Writes
      (Section (.createTeamAs actor org name slug members)) := by
  unfold Core.createTeamAs
  refine (writes_ofExcept _).bind fun _ => writes_unless (writes_unless ?_)
  refine (writes_locked fun _ _ => .createTeamAs _).bind fun _ => ?_
  exact audit_then .createTeamAs _ _ _ _ _ (writes_pure _)

theorem addTeamMember_writes {actor org team login : String} :
    (Core.addTeamMember actor org team login).Writes (Section (.addTeamMember actor org team login)) :=
  @audited_writes (.addTeamMember actor org team login) _ _ _ _ .addTeamMember
    (writes_locked fun _ _ => .addTeamMember)

theorem removeTeamMember_writes {actor org team login : String} :
    (Core.removeTeamMember actor org team login).Writes
      (Section (.removeTeamMember actor org team login)) := by
  unfold Core.removeTeamMember
  exact utcNow_readOnly.bind fun now => @audited_writes (.removeTeamMember actor org team login)
    _ _ _ _ .removeTeamMember (writes_locked fun _ _ => .removeTeamMember now)

end Organizations

section Bots

theorem enrollBot_writes {actor slug displayName : String} {kind : BotKind} {reach : BotReach}
    {env : String} {random : Except ForgeError Unit} :
    (Core.enrollBotWithEnv actor slug displayName kind reach env random).Writes
      (Section (.enrollBot actor slug displayName kind reach env random)) := by
  unfold Core.enrollBotWithEnv storeEnrolledBot
  refine (requireActiveAccount_readOnly actor).bind fun account => (writes_ofExcept _).bind fun _ => ?_
  refine (normalizeReach_readOnly _ _).bind fun normalized => utcNow_readOnly.bind fun now => ?_
  refine (writes_ofExcept _).bind fun _ => ?_
  refine (writes_locked fun _ _ => .enrollBot account normalized now).bind fun stored => ?_
  exact audit_then .enrollBot _ _ _ _ _ (writes_pure _)

theorem enrollTeamBot_writes {actor org stewardTeam slug displayName : String} {kind : BotKind}
    {reach : BotReach} {random : Except ForgeError Unit} :
    (Core.enrollTeamBot actor org stewardTeam slug displayName kind reach random).Writes
      (Section (.enrollTeamBot actor org stewardTeam slug displayName kind reach random)) := by
  unfold Core.enrollTeamBot storeEnrolledBot
  refine (requireActiveAccount_readOnly actor).bind fun account => (writes_ofExcept _).bind fun _ => ?_
  refine (writes_reading _).bind fun _ => (normalizeReach_readOnly _ _).bind fun normalized => ?_
  refine utcNow_readOnly.bind fun now => (writes_ofExcept _).bind fun _ => ?_
  refine (writes_locked fun _ _ => .enrollTeamBot normalized now).bind fun stored => ?_
  exact audit_then .enrollTeamBot _ _ _ _ _ (writes_pure _)

theorem rotateBotKey_writes {actor : String} {botId : Uuid} {random : Except ForgeError Unit} :
    (Core.rotateBotKey actor botId random).Writes (Section (.rotateBotKey actor botId random)) := by
  unfold Core.rotateBotKey
  refine (requireActiveAccount_readOnly actor).bind fun account => utcNow_readOnly.bind fun now => ?_
  refine (writes_ofExcept _).bind fun _ => ?_
  refine (writes_locked fun _ _ => .rotateBotKey account now).bind fun _ => ?_
  exact audit_then .rotateBotKey _ _ _ _ _ (writes_pure _)

theorem suspendBot_writes {actor : String} {botId : Uuid} :
    (Core.suspendBot actor botId).Writes (Section (.suspendBot actor botId)) := by
  unfold Core.suspendBot
  refine (writes_locked fun _ _ => .suspendBot).bind fun _ => ?_
  exact audit_then .suspendBot _ _ _ _ _ (writes_pure _)

theorem revokeBot_writes {actor : String} {botId : Uuid} :
    (Core.revokeBot actor botId).Writes (Section (.revokeBot actor botId)) := by
  unfold Core.revokeBot
  refine utcNow_readOnly.bind fun now => (writes_locked fun _ _ => .revokeBot now).bind fun _ => ?_
  exact audit_then .revokeBot _ _ _ _ _ (writes_pure _)

theorem exchangeBotEnrollmentKey_writes {presented : PresentedKey} {random : Except ForgeError Unit} :
    (Core.exchangeBotEnrollmentKey presented random).Writes
      (Section (.exchangeBotEnrollmentKey presented random)) := by
  unfold Core.exchangeBotEnrollmentKey
  cases presented with
  | none => exact writes_throw _
  | some key =>
    obtain ⟨keyId, secret⟩ := key
    refine (writes_reading _).bind fun verified => ?_
    cases verified with
    | none => exact writes_throw _
    | some verifiedHash =>
      refine writes_unless (utcNow_readOnly.bind fun now => ?_)
      refine Writes.bind (writes_settled fun _ _ => .exchangeBotEnrollmentKey verifiedHash now)
        fun issued => ?_
      exact audit_then .exchangeBotEnrollmentKey _ _ _ _ _ (writes_pure _)

theorem answerRefresh_writes {call : Call} (audited : call.Audited) (answer : RefreshAnswer) :
    (answerRefresh answer).Writes fun core core' _ => ∀ reply, Section call core core' reply := by
  cases answer with
  | session session => exact writes_pure _
  | replayed actor subject session =>
    exact Writes.bind (Writes.mono (appendAuditAs_writes audited _ _ _ _) fun _ _ _ moved _ => moved)
      fun _ => writes_pure _
  | reused actor subject =>
    exact Writes.bind (Writes.mono (appendAuditAs_writes audited _ _ _ _) fun _ _ _ moved _ => moved)
      fun _ => writes_throw _

theorem rotateBotRefreshToken_writes {refreshToken : Secret} {random : Except ForgeError Unit} :
    (Core.rotateBotRefreshToken refreshToken random).Writes
      (Section (.rotateBotRefreshToken refreshToken random)) := by
  unfold Core.rotateBotRefreshToken
  refine utcNow_readOnly.bind fun now => ?_
  refine Writes.bind (writes_settled fun _ _ => .rotateBotRefreshToken now) fun answer => ?_
  exact Writes.mono (answerRefresh_writes .rotateBotRefreshToken answer) fun _ _ _ moved => moved _

theorem rotateBotRefreshTokenIdempotent_writes {vaultKey : Option String} {refreshToken : Secret}
    {requestKey bodyDigest : String} {random : Except ForgeError Unit} :
    (Core.rotateBotRefreshTokenIdempotent vaultKey refreshToken requestKey bodyDigest random).Writes
      (Section (.rotateBotRefreshTokenIdempotent vaultKey refreshToken requestKey bodyDigest
        random)) := by
  unfold Core.rotateBotRefreshTokenIdempotent
  refine (writes_ofExcept _).bind fun _ => (writes_ofExcept _).bind fun _ => ?_
  refine utcNow_readOnly.bind fun now => ?_
  refine Writes.bind ⟨fun core _ => ⟨fun reply => ?_, True.intro⟩⟩ fun answer => ?_
  · exact .rotateBotRefreshTokenIdempotent now _ rfl
  · exact Writes.mono (answerRefresh_writes .rotateBotRefreshTokenIdempotent answer)
      fun _ _ _ moved => moved _

theorem authorizeBotCall_writes {call : Call} (audited : call.Audited) (asked : BotCall)
    (reference : Option String) : (authorizeBotCall asked reference).Writes
      fun core core' _ => ∀ reply, Section call core core' reply := by
  unfold authorizeBotCall
  refine Writes.bind (writes_reading _) fun decided => ?_
  obtain ⟨bot, _ | code⟩ := decided
  · exact writes_pure _
  · exact Writes.bind (Writes.mono (appendAuditAs_writes audited _ _ _ _) fun _ _ _ moved _ => moved)
      fun _ => writes_throw _

theorem issueBotAccessToken_writes {actor : String} {botId : Uuid} {label : Option String}
    {ttlDays : Option Nat} {random : Except ForgeError Unit} :
    (Core.issueBotAccessToken actor botId label ttlDays random).Writes
      (Section (.issueBotAccessToken actor botId label ttlDays random)) := by
  unfold Core.issueBotAccessToken
  refine (requireActiveAccount_readOnly actor).bind fun _ => (writes_ofExcept _).bind fun days => ?_
  refine (writes_ofExcept _).bind fun text => (writes_ofExcept _).bind fun _ => ?_
  refine utcNow_readOnly.bind fun now => ?_
  refine (writes_locked fun _ _ => .issueBotAccessToken text days now).bind fun issued => ?_
  exact audit_then .issueBotAccessToken _ _ _ _ _ (writes_pure _)

theorem revokeBotAccessToken_writes {actor : String} {botId : Uuid} {tokenId : Secret} :
    (Core.revokeBotAccessToken actor botId tokenId).Writes
      (Section (.revokeBotAccessToken actor botId tokenId)) := by
  unfold Core.revokeBotAccessToken
  refine utcNow_readOnly.bind fun now => ?_
  refine (writes_locked fun _ _ => .revokeBotAccessToken now).bind fun _ => ?_
  exact audit_then .revokeBotAccessToken _ _ _ _ _ (writes_pure _)

theorem authenticateBotAccessToken_writes {presented : Option Secret} :
    (Core.authenticateBotAccessToken presented).Writes
      (Section (.authenticateBotAccessToken presented)) := by
  unfold Core.authenticateBotAccessToken
  cases presented with
  | none => exact writes_throw _
  | some token =>
    refine utcNow_readOnly.bind fun now => (writes_reading _).bind fun found => ?_
    obtain ⟨auth, stale⟩ := found
    exact writes_ite ((writes_locked fun _ _ => .authenticateBotAccessToken now).bind
      fun _ => writes_pure _) (writes_pure _)

theorem grantBotRepository_writes {actor : String} {botId : Uuid} {owner repo : String}
    {access : BotRepoAccess} :
    (Core.grantBotRepository actor botId owner repo access).Writes
      (Section (.grantBotRepository actor botId owner repo access)) := by
  unfold Core.grantBotRepository
  refine utcNow_readOnly.bind fun now => ?_
  refine (writes_locked fun _ _ => .grantBotRepository now).bind fun _ => ?_
  exact audit_then .grantBotRepository _ _ _ _ _ (writes_pure _)

theorem revokeBotRepositoryGrant_writes {actor : String} {botId : Uuid} {owner repo : String} :
    (Core.revokeBotRepositoryGrant actor botId owner repo).Writes
      (Section (.revokeBotRepositoryGrant actor botId owner repo)) := by
  unfold Core.revokeBotRepositoryGrant
  refine (writes_locked fun _ _ => .revokeBotRepositoryGrant).bind fun found => ?_
  obtain ⟨bot, removed⟩ := found
  exact writes_ite (Writes.mono (appendAuditAs_writes .revokeBotRepositoryGrant _ _ _ _)
    fun _ _ _ moved => moved _) (writes_pure _)

theorem revokeIssuedTeamBotTokens_writes {actor : String} :
    (Core.revokeIssuedTeamBotTokens actor).Writes (Section (.revokeIssuedTeamBotTokens actor)) := by
  unfold Core.revokeIssuedTeamBotTokens
  refine utcNow_readOnly.bind fun now => ?_
  refine (writes_locked fun _ _ => .revokeIssuedTeamBotTokens now).bind fun revoked => ?_
  exact writes_ite (audit_then .revokeIssuedTeamBotTokens _ _ _ _ _ (writes_pure _)) (writes_pure _)

theorem noteBotObservation_writes {botId : Uuid} {observation : BotObservation} :
    (Core.noteBotObservation botId observation).Writes
      (Section (.noteBotObservation botId observation)) := by
  unfold Core.noteBotObservation
  exact (writes_ofExcept _).bind fun _ => writes_unless (utcNow_readOnly.bind
    fun now => writes_locked fun _ => .noteBotObservation now)

theorem requirePlainOperation_ok {operation : String}
    (passed : requirePlainOperation operation = .ok ()) : operation ≠ refreshOperation := by
  intro same
  rw [requirePlainOperation, if_pos same] at passed
  cases passed

theorem reserveBotOperation_writes {botId : Uuid} {operation requestKey bodyDigest : String} :
    (Core.reserveBotOperation botId operation requestKey bodyDigest).Writes
      (Section (.reserveBotOperation botId operation requestKey bodyDigest)) := by
  unfold Core.reserveBotOperation
  refine (writes_ofExcept _).bind fun _ => writes_ofExcept_bind fun _ passed => ?_
  refine (writes_ofExcept _).bind fun _ => (writes_ofExcept _).bind fun _ => ?_
  exact utcNow_readOnly.bind fun now => writes_locked
    fun _ => .reserveBotOperation now (requirePlainOperation_ok passed)

theorem finishBotOperation_writes {botId : Uuid} {operation requestKey result : String}
    {isJson : Bool} :
    (Core.finishBotOperation botId operation requestKey result isJson).Writes
      (Section (.finishBotOperation botId operation requestKey result isJson)) := by
  unfold Core.finishBotOperation
  refine writes_unless (writes_ofExcept_bind fun _ passed => ?_)
  exact writes_locked fun _ => .finishBotOperation (requirePlainOperation_ok passed)

end Bots

/-- Whatever a call writes, it writes in one of its sections. -/
theorem call_writes (call : Call) : call.method.Writes (Section call) := by
  cases call with
  | createUser request => exact @createUser_writes request
  | ensureUser login => exact @ensureUser_writes login
  | createAccount login password role hash => exact @createAccount_writes login password role hash
  | createTemporaryAccount login password role hash =>
    exact @createTemporaryAccount_writes login password role hash
  | authenticatePassword => exact writes_reading _
  | resetAccountPassword login newPassword salt =>
    exact @resetAccountPassword_writes login newPassword salt
  | changeAccountPassword login currentPassword newPassword salt =>
    exact @changeAccountPassword_writes login currentPassword newPassword salt
  | forcePasswordChange login forced => exact @forcePasswordChange_writes login forced
  | disableAccount | lockAccount | reactivateAccount | markAccountMfaActive =>
    exact transition_writes fun _ _ answered => .transition rfl answered
  | issuePasswordRecovery login random => exact @issuePasswordRecovery_writes login random
  | recoverPassword presented newPassword salt =>
    exact @recoverPassword_writes presented newPassword salt
  | createSession login ttl random => exact @createSession_writes login ttl random
  | sessionForToken => exact writes_reading _
  | revokeSession => exact writes_locked fun _ => .revokeSession
  | createPersonalAccessToken login name expiresAt random =>
    exact @createPersonalAccessToken_writes login name expiresAt random
  | revokePersonalAccessToken login id => exact @revokePersonalAccessToken_writes login id
  | authenticatePersonalAccessToken => exact writes_reading _
  | createAccountInvitation issuer login displayName bindings expiresAt bootstrapOwner random =>
    exact @createAccountInvitation_writes issuer login displayName bindings expiresAt bootstrapOwner random
  | revokeAccountInvitation => exact writes_locked fun _ => .revokeAccountInvitation
  | startAccountActivation login activationSecret random =>
    exact @startAccountActivation_writes login activationSecret random
  | completeAccountActivation challenge password salt =>
    exact @completeAccountActivation_writes challenge password salt
  | createOrganization request => exact @createOrganization_writes request
  | createOrganizationAs actor login displayName owners =>
    exact @createOrganizationAs_writes actor login displayName owners
  | addOrganizationOwner actor org login => exact @addOrganizationOwner_writes actor org login
  | removeOrganizationOwner actor org login => exact @removeOrganizationOwner_writes actor org login
  | createTeam org request => exact @createTeam_writes org request
  | createTeamAs actor org name slug members =>
    exact @createTeamAs_writes actor org name slug members
  | addTeamMember actor org team login => exact @addTeamMember_writes actor org team login
  | removeTeamMember actor org team login => exact @removeTeamMember_writes actor org team login
  | enrollBot actor slug displayName kind reach env random =>
    exact @enrollBot_writes actor slug displayName kind reach env random
  | enrollTeamBot actor org stewardTeam slug displayName kind reach random =>
    exact @enrollTeamBot_writes actor org stewardTeam slug displayName kind reach random
  | rotateBotKey actor botId random => exact @rotateBotKey_writes actor botId random
  | suspendBot actor botId => exact @suspendBot_writes actor botId
  | revokeBot actor botId => exact @revokeBot_writes actor botId
  | exchangeBotEnrollmentKey presented random =>
    exact @exchangeBotEnrollmentKey_writes presented random
  | rotateBotRefreshToken refreshToken random =>
    exact @rotateBotRefreshToken_writes refreshToken random
  | rotateBotRefreshTokenIdempotent vaultKey refreshToken requestKey bodyDigest random =>
    exact @rotateBotRefreshTokenIdempotent_writes vaultKey refreshToken requestKey bodyDigest random
  | authenticateBotAccess => exact writes_reading _
  | authorizeBot =>
    exact Writes.mono (authorizeBotCall_writes .authorizeBot _ _) fun _ _ _ moved => moved _
  | authorizeBotRefWrite =>
    exact Writes.mono (authorizeBotCall_writes .authorizeBotRefWrite _ _) fun _ _ _ moved => moved _
  | issueBotAccessToken actor botId label ttlDays random =>
    exact @issueBotAccessToken_writes actor botId label ttlDays random
  | revokeBotAccessToken actor botId tokenId =>
    exact @revokeBotAccessToken_writes actor botId tokenId
  | authenticateBotAccessToken presented => exact @authenticateBotAccessToken_writes presented
  | grantBotRepository actor botId owner repo access =>
    exact @grantBotRepository_writes actor botId owner repo access
  | revokeBotRepositoryGrant actor botId owner repo =>
    exact @revokeBotRepositoryGrant_writes actor botId owner repo
  | revokeIssuedTeamBotTokens actor => exact @revokeIssuedTeamBotTokens_writes actor
  | noteBotObservation botId observation => exact @noteBotObservation_writes botId observation
  | reserveBotOperation botId operation requestKey bodyDigest =>
    exact @reserveBotOperation_writes botId operation requestKey bodyDigest
  | finishBotOperation botId operation requestKey result isJson =>
    exact @finishBotOperation_writes botId operation requestKey result isJson

end Jeryu.Auth
