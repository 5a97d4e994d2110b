import Jeryu.Auth.Reach
import Jeryu.Auth.Passwords

namespace Jeryu.Core

open KeyedMap Text

structure BotSummary where
  id : Uuid
  owner : String
  ownerKind : BotOwnerKind
  stewardTeam : Option String
  actingLogin : String
  slug : String
  displayName : String
  kind : BotKind
  status : BotStatus
  reach : BotReach
  credentialGeneration : Nat
  lastSuccessfulAccess : Option DateTime
  lastAuth : Option DateTime
  lastMutation : Option DateTime
  lastHeartbeat : Option DateTime
  lastAction : Option String
  lastOutcome : Option String
  lastRepo : Option String
  createdAt : DateTime

def BotRecord.summary (bot : BotRecord) : BotSummary :=
  { bot with actingLogin := bot.actingLogin }

/-- The key itself is its id and its secret. -/
structure BotEnrollment where
  bot : BotSummary
  keyId : Secret
  enrollmentSecret : Secret

structure BotSession where
  bot : BotSummary
  keyId : Secret
  generation : Nat
  refreshToken : Secret
  refreshExpiresAt : DateTime

section Failures

/-- Why a bot call failed, with the repair its error carries. -/
inductive BotFailure where
  | invalidEnrollment
  | invalidCredential
  | conflict
  | notGranted
  | missing
  | storage
  deriving DecidableEq

structure BotFailureRepair where
  purpose : String
  reason : String
  commonFixes : String
  docsUrl : String
  repairHint : String

def ForgeError.message : ForgeError → String
  | .notFound message | .conflict message | .validation message | .forbidden message
  | .branchProtection message | .repositoryArchived message | .storage message
  | .storeCustody message => message
  -- No bot call meets these.
  | .blocked _ | .notOverridable _ => ""

def ForgeError.rewrite (message : String) : ForgeError → ForgeError
  | .notFound _ => .notFound message
  | .conflict _ => .conflict message
  | .validation _ => .validation message
  | .forbidden _ => .forbidden message
  | .branchProtection _ | .blocked _ | .notOverridable _ => .branchProtection message
  | .repositoryArchived _ => .repositoryArchived message
  | .storage _ => .storage message
  | .storeCustody _ => .storeCustody message

/-- Machine code before a bot repair suffix. -/
def machineText (message : String) : String :=
  match Glob.cut " purpose:".toList message.toList with
  | some (head, _) => String.ofList head
  | none => message

def invalidCredentialText : String := "invalid bot credential"

def BotFailure.classify : ForgeError → BotFailure
  | .validation message =>
    if machineText message = invalidCredentialText then .invalidCredential else .invalidEnrollment
  | .conflict _ => .conflict
  | .forbidden _ | .branchProtection _ | .blocked _ | .notOverridable _ | .repositoryArchived _ =>
    .notGranted
  | .notFound _ => .missing
  | .storage _ | .storeCustody _ => .storage

def botTests : String := "rerun cargo test -p jeryu-core --lib core::bots::tests"

def BotFailure.repair : BotFailure → BotFailureRepair
  | .invalidEnrollment =>
    { purpose := "enroll or rotate a Grokbot or Musebot credential"
      reason := "the slug, display name, kind, reach, or key environment is rejected, or the account cannot authenticate"
      commonFixes := "use a login-shaped slug; keep the display name within 80 characters; choose general reach, 1 to 20 owners, at most 100 repositories, or one issue, pull, or branch; a kind matches ^[a-z][a-z0-9-]\x7b0,31\x7d$"
      docsUrl := "docs/errors.md#bot-enrollment"
      repairHint := botTests }
  | .invalidCredential =>
    { purpose := "exchange an enrollment key or rotate a refresh token"
      reason := "the credential is not a current enrollment key or an unused refresh token for an active Grokbot or Musebot"
      commonFixes := "present the one-time enrollment key or the latest refresh token; do not send either as a bearer; a reused refresh token revokes the family"
      docsUrl := "docs/errors.md#bot-credential"
      repairHint := botTests }
  | .conflict =>
    { purpose := "keep one slug and one idempotent body per account"
      reason := "this account already has that slug, or the idempotency key was replayed with a different body"
      commonFixes := "choose another slug, or resend the original request body with the same idempotency key"
      docsUrl := "docs/errors.md#bot-conflict"
      repairHint := botTests }
  | .notGranted =>
    { purpose := "authorize a Grokbot or Musebot inside the owner's non-admin reach"
      reason := "the repository or ref is outside the grant, the task is not the one granted, or the effect exceeds the owner's rights"
      commonFixes := "narrow the call to a granted repository, ref, or task; do not request forge admin, release, pin, or user administration"
      docsUrl := "docs/errors.md#bot-reach"
      repairHint := botTests }
  | .missing =>
    { purpose := "load one account-owned Grokbot or Musebot"
      reason := "no credential exists for that id, or it has been revoked"
      commonFixes := "enroll again or list the account roster; a revoked credential is not found for rotation"
      docsUrl := "docs/errors.md#bot-missing"
      repairHint := botTests }
  | .storage =>
    { purpose := "hash a new enrollment secret"
      reason := "the forge could not read randomness or build the Argon2id hash"
      commonFixes := "retry the enroll or rotate once; do not keep the secret if the hash fails"
      docsUrl := "docs/errors.md#bot-storage"
      repairHint := botTests }

/-- The error with the repair of its failure. -/
def explainBot (error : ForgeError) : ForgeError :=
  let repair := (BotFailure.classify error).repair
  error.rewrite (machineText error.message ++ " purpose: " ++ repair.purpose ++ "; reason: " ++
    repair.reason ++ "; common fixes: " ++ repair.commonFixes ++ "; docs_url: " ++ repair.docsUrl ++
    "; repair_hint: " ++ repair.repairHint)

def invalidBot : Failure := .error (explainBot (.validation invalidCredentialText))

end Failures

def requireDisplayName (displayName : String) : Except ForgeError Unit := do
  requireName "display name" displayName
  if (trim displayName).length > 80 then
    throw (.validation "display name may not exceed 80 characters")

/-- Slug, display name and key environment, shared by every enrollment. -/
def validateEnrollment (slug displayName env : String) : Except ForgeError Unit := do
  requireLogin slug
  requireDisplayName displayName
  if env ≠ "live" && env ≠ "test" then
    throw (.validation "bot key environment must be live or test")

/-- One audit row per bot action. -/
def recordBotAudit (actor action subject : String) (phase : AuditPhase) : Method Unit :=
  appendAuditAs actor action subject phase

def BotRecord.fresh (owner : String) (ownerKind : BotOwnerKind) (stewardTeam : Option String)
    (slug displayName : String) (kind : BotKind) (reach : BotReach) (authEpoch : Nat)
    (now : DateTime) (id : Uuid) : BotRecord :=
  { id, owner, ownerKind, stewardTeam, slug, displayName := trim displayName, kind
    status := .active, reach, authEpoch, credentialGeneration := 1
    lastSuccessfulAccess := none, lastAuth := none, lastMutation := none, lastHeartbeat := none
    lastAction := none, lastOutcome := none, lastRepo := none, createdAt := now, updatedAt := now }

def State.withKey (state : State) (key : BotKeyRecord) : State :=
  { state with auth := { state.auth with botKeys := state.auth.botKeys.insert key.keyId key } }

def State.withBot (state : State) (bot : BotRecord) : State :=
  { state with bots := state.bots.insert bot.id bot }

/-- A slug is unique per owner. `record` makes the bot of its id. -/
def storeEnrolledBotLocked (record : Uuid → BotRecord) (env : String) (core : ForgeCore) :
    Outcome (BotRecord × BotEnrollment) :=
  let bot := record core.uuids
  let keyId := core.uuids + 1
  let secret := core.uuids + 2
  let key : BotKeyRecord :=
    { keyId, botId := bot.id, secretHash := tokenHash secret, env, createdAt := bot.createdAt
      retiredAt := none, revokedAt := none }
  if core.state.bots.values.any fun existing => existing.owner = bot.owner && existing.slug = bot.slug then
    .refuse (explainBot (.conflict s!"bot {bot.owner}/{bot.slug}"))
  else .commit [] 3 ((core.state.withKey key).withBot bot) none (bot, ⟨bot.summary, keyId, secret⟩)

/-- `random` is what the random source and Argon2id answer. -/
def storeEnrolledBot (actor : String) (record : Uuid → BotRecord) (env : String)
    (random : Except ForgeError Unit) : Method BotEnrollment := do
  .ofExcept random
  let (bot, enrollment) ← .locked (storeEnrolledBotLocked record env)
  recordBotAudit actor "bot.enroll" bot.subject .completed
  return enrollment

def enrollBotWithEnv (actor slug displayName : String) (kind : BotKind) (reach : BotReach)
    (env : String) (random : Except ForgeError Unit) : Method BotEnrollment := do
  let account ← requireActiveAccount actor
  .ofExcept (validateEnrollment slug displayName env)
  let reach ← normalizeReach account.login reach
  let now ← utcNow
  storeEnrolledBot account.login
    (.fresh account.login .user none slug displayName kind reach account.authEpoch now) env random

def enrollBot (actor slug displayName : String) (kind : BotKind) (reach : BotReach)
    (random : Except ForgeError Unit) : Method BotEnrollment :=
  enrollBotWithEnv actor slug displayName kind reach "live" random

/-- An owner of the organization, or a forge administrator, may. -/
def enrollTeamBotCheck (login org stewardTeam : String) (core : ForgeCore) :
    Except ForgeError Unit :=
  let administers := core.state.isGlobalAdmin login || (core.state.isActive login &&
    (core.state.organizations.lookup org).any fun organization => organization.owners.contains login)
  if (core.state.organizations.lookup org).isNone then .error (.notFound s!"organization {org}")
  else if !administers then
    .error (.forbidden "organization owner or forge administrator required")
  else if (core.state.auth.teams.lookup (org, stewardTeam)).isNone then
    .error (.validation s!"steward team {org}/{stewardTeam} does not exist")
  else .ok ()

def enrollTeamBot (actor org stewardTeam slug displayName : String) (kind : BotKind)
    (reach : BotReach) (random : Except ForgeError Unit) : Method BotEnrollment := do
  let account ← requireActiveAccount actor
  .ofExcept (validateEnrollment slug displayName "live")
  .reading (enrollTeamBotCheck account.login org stewardTeam)
  let reach ← normalizeReach account.login reach
  let now ← utcNow
  storeEnrolledBot account.login
    (.fresh org .organization (some stewardTeam) slug displayName kind reach 0 now) "live" random

/-- The keys of the bot after a rotation: revoked where the account moved on since the last one,
    else retired in five minutes. -/
def rotatedKey (botId : Uuid) (stale : Bool) (now : DateTime) (key : BotKeyRecord) : BotKeyRecord :=
  if key.botId = botId && key.revokedAt.isNone then
    if stale then { key with revokedAt := some now }
    else if key.retiredAt.isNone then { key with retiredAt := some (now + 5 * minute) }
    else key
  else key

def rotateBotKeyLocked (actor : String) (account : AccountSummary) (botId : Uuid) (now : DateTime)
    (core : ForgeCore) : Outcome BotEnrollment :=
  match core.state.managedBot actor botId with
  | .error error => .refuse error
  | .ok bot =>
    if bot.status = .revoked then .refuse (.notFound s!"bot {botId}")
    else match core.state.accounts.lookup account.login with
      | none => .refuse (.validation "account is not active")
      | some stored =>
        if !stored.status.permitsAuthentication then .refuse (.validation "account is not active")
        else
          -- A stale epoch means the account moved on: previous keys do not keep the grace.
          let stale := bot.ownerKind = .user && bot.authEpoch != stored.authEpoch
          let authEpoch := if bot.ownerKind = .user then stored.authEpoch else bot.authEpoch
          let credentialGeneration :=
            if stale then bot.credentialGeneration + 1 else bot.credentialGeneration
          let bot := { bot with authEpoch, updatedAt := now, credentialGeneration }
          let keyId := core.uuids
          let secret := core.uuids + 1
          let key : BotKeyRecord :=
            { keyId, botId, secretHash := tokenHash secret, env := "live", createdAt := now
              retiredAt := none, revokedAt := none }
          let state := core.state.mapKeys (rotatedKey botId stale now)
          let state := if stale then state.dropRefresh fun token => token.botId = botId else state
          let state := { state.withKey key with bots := state.bots.insert botId bot }
          .commit [] 2 state none ⟨bot.summary, keyId, secret⟩

def BotSummary.subject (bot : BotSummary) : String := bot.owner ++ "/" ++ bot.slug

def rotateBotKey (actor : String) (botId : Uuid) (random : Except ForgeError Unit) :
    Method BotEnrollment := do
  let account ← requireActiveAccount actor
  let now ← utcNow
  .ofExcept random
  let enrollment ← .locked (rotateBotKeyLocked actor account botId now)
  recordBotAudit actor "bot.rotate" enrollment.bot.subject .completed
  return enrollment

def suspendBotLocked (actor : String) (botId : Uuid) (core : ForgeCore) : Outcome BotSummary :=
  match core.state.managedBot actor botId with
  | .error error => .refuse error
  | .ok bot =>
    if bot.status = .revoked then .refuse (.notFound s!"bot {botId}")
    else
      let bot := { bot with status := .suspended, updatedAt := core.now }
      .commit [] 0 { core.state with bots := core.state.bots.insert botId bot } none bot.summary

def suspendBot (actor : String) (botId : Uuid) : Method BotSummary := do
  let summary ← .locked (suspendBotLocked actor botId)
  recordBotAudit actor "bot.suspend" summary.subject .completed
  return summary

def revokeBotLocked (actor : String) (botId : Uuid) (now : DateTime) (core : ForgeCore) :
    Outcome BotSummary :=
  match core.state.managedBot actor botId with
  | .error error => .refuse error
  | .ok bot =>
    let bot := { bot.regenerated now with status := .revoked }
    let state := { core.state with bots := core.state.bots.insert botId bot }
    let state := state.mapKeys fun key =>
      if key.botId = botId then { key with revokedAt := some now } else key
    .commit [] 0 (state.dropRefresh fun token => token.botId = botId) none bot.summary

def revokeBot (actor : String) (botId : Uuid) : Method BotSummary := do
  let now ← utcNow
  let summary ← .locked (revokeBotLocked actor botId now)
  recordBotAudit actor "bot.revoke" summary.subject .completed
  return summary

/-- Confirm the bot, key, generation, and account epoch without a repository. -/
def State.botAccess (state : State) (now : DateTime) (botId : Uuid) (generation : Nat)
    (keyId : Secret) : Except ForgeError BotSummary :=
  match state.bots.lookup botId with
  | none => .error (.validation invalidCredentialText)
  | some bot =>
    if !state.botAccountMatches bot || bot.credentialGeneration != generation then
      .error (.validation invalidCredentialText)
    else if (state.auth.botKeys.lookup keyId).any fun key => key.botId = bot.id && key.isLive now then
      .ok bot.summary
    else .error (.validation invalidCredentialText)

def authenticateBotAccess (botId : Uuid) (generation : Nat) (keyId : Secret) : Method BotSummary :=
  .reading fun core => core.state.botAccess core.now botId generation keyId

/-- What an authorization decides: the bot, or the code of the denial and the bot denied. -/
def State.authorizeBotCall (state : State) (now : DateTime) (call : BotCall)
    (reference : Option String) : Except ForgeError (BotRecord × Option String) :=
  match state.bots.lookup call.botId with
  | none => .error (.validation invalidCredentialText)
  | some bot =>
    if !state.botAccountMatches bot || bot.credentialGeneration != call.generation then
      .error (.validation invalidCredentialText)
    else if !((state.auth.botKeys.lookup call.keyId).any fun key =>
        key.botId = bot.id && key.isLive now) then .error (.validation invalidCredentialText)
    else
      let canRead := state.botGrantAllows bot call.owner call.repo false
      let canWrite := state.botGrantAllows bot call.owner call.repo true
      .ok (bot,
        if call.effect = .write && !canWrite then
          some (if canRead then "insufficient_scope" else "repo_not_granted")
        else if call.effect = .read && !canRead then some "repo_not_granted"
        else if !state.reachAllows bot call then some (reachDenialCode bot.reach call)
        else if reference.any fun reference => !bot.reach.allowsRef reference then
          some "ref_not_granted"
        else none)

def authorizeBotCall (call : BotCall) (reference : Option String) : Method BotSummary := do
  let (bot, denied) ← .reading fun core => core.state.authorizeBotCall core.now call reference
  match denied with
  | some code =>
    recordBotAudit bot.actingLogin "bot.authorize" bot.subject .failed
    throw (.error (explainBot (.forbidden code)))
  | none => return bot.summary

def authorizeBot (call : BotCall) : Method BotSummary := authorizeBotCall call none

def authorizeBotRefWrite (call : BotCall) (reference : String) : Method BotSummary :=
  authorizeBotCall { call with effect := .write } (some reference)

end Jeryu.Core
