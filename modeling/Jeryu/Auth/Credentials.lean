import Jeryu.Core.Accounts

namespace Jeryu.Core

open KeyedMap Text

def second : Int := 1000000000

def minute : Int := 60 * second

def hour : Int := 60 * minute

def day : Int := 24 * hour

/-- The password a PHC text was made from: what follows the algorithm and the salt. -/
def passwordOf (hash : String) : Option String :=
  match stripPrefix hash "$argon2id$" with
  | some rest => (splitOnce rest '$').map Prod.snd
  | none => none

/-- `salt` is what the random source and Argon2id answer. -/
def hashPassword (salt : Except ForgeError String) (password : String) : Except ForgeError String :=
  salt.map fun salt => "$argon2id$" ++ salt ++ "$" ++ password

def verifyPassword (password passwordHash : String) : Except ForgeError Unit :=
  if passwordOf passwordHash = some password then .ok ()
  else .error (.validation "invalid login or password")

def nextAuthEpoch (current : Nat) : Except ForgeError Nat :=
  if current + 1 < 2 ^ 64 then .ok (current + 1)
  else .error (.storage "account auth epoch overflow")

def BotKeyRecord.isLive (key : BotKeyRecord) (now : DateTime) : Bool :=
  key.revokedAt.isNone && key.retiredAt.all fun retired => retired > now

def BotAccessTokenRecord.isLive (record : BotAccessTokenRecord) (bot : BotRecord) (now : DateTime) :
    Bool :=
  record.revokedAt.isNone && record.expiresAt > now && record.generation = bot.credentialGeneration

def PasswordRecoveryRecord.isLive (record : PasswordRecoveryRecord) (now : DateTime) : Bool :=
  record.consumedAt.isNone && record.expiresAt > now && record.attemptCount < 5

/-- A person's own bot. -/
def BotRecord.ownedBy (bot : BotRecord) (login : String) : Bool :=
  bot.ownerKind = .user && bot.owner = login

def BotRecord.stewardedBy (bot : BotRecord) (org team : String) : Bool :=
  bot.ownerKind = .organization && bot.owner = org && bot.stewardTeam = some team

/-- `saturating_add`, below the largest counter. -/
def BotRecord.regenerated (bot : BotRecord) (now : DateTime) : BotRecord :=
  { bot with credentialGeneration := bot.credentialGeneration + 1, updatedAt := now }

def teamBotLogin (organization slug : String) : String :=
  organization ++ "." ++ slug ++ teamBotLoginSuffix

/-- The login a bot acts, authors and is audited as. -/
def BotRecord.actingLogin (bot : BotRecord) : String :=
  match bot.ownerKind with
  | .user => bot.owner
  | .organization => teamBotLogin bot.owner bot.slug

def BotRecord.subject (bot : BotRecord) : String := bot.owner ++ "/" ++ bot.slug

namespace State

def mapKeys (state : State) (f : BotKeyRecord → BotKeyRecord) : State :=
  { state with auth := { state.auth with botKeys := state.auth.botKeys.mapValues fun _ => f } }

def mapTokens (state : State) (f : BotAccessTokenRecord → BotAccessTokenRecord) : State :=
  { state with auth := { state.auth with
      botAccessTokens := state.auth.botAccessTokens.mapValues fun _ => f } }

def dropRefresh (state : State) (drops : BotRefreshRecord → Bool) : State :=
  { state with auth := { state.auth with
      botRefresh := state.auth.botRefresh.retain fun _ token => !drops token } }

def endSessions (state : State) (login : String) : State :=
  { state with auth := { state.auth with
      sessions := state.auth.sessions.retain fun _ session => session.login != login
      personalTokens := state.auth.personalTokens.retain fun _ token => token.login != login } }

/-- The ids of the bots `login` owns. -/
def ownedBots (state : State) (login : String) : List Uuid :=
  (state.bots.values.filter fun bot => bot.ownedBy login).map BotRecord.id

/-- Drop refresh tokens and bump the generation of every bot owned by `login`, and revoke the
    enrollment keys. `authEpoch` stays stale until the owner rotates. -/
def invalidateAccountBots (state : State) (login : String) (now : DateTime) : State :=
  let ids := state.ownedBots login
  let bots := state.bots.mapValues fun id bot =>
    if ids.contains id then bot.regenerated now else bot
  let state := { state with bots }
  let state := state.mapKeys fun key =>
    if ids.contains key.botId && key.revokedAt.isNone then { key with revokedAt := some now } else key
  state.dropRefresh fun token => ids.contains token.botId

/-- The live tokens `picks` matches, and the state without them. -/
def revokeMatching (state : State) (now : DateTime) (picks : BotAccessTokenRecord → Bool) :
    Nat × State :=
  let matched (record : BotAccessTokenRecord) := record.revokedAt.isNone && picks record
  ((state.auth.botAccessTokens.values.filter matched).length,
    state.mapTokens fun record => if matched record then { record with revokedAt := some now } else record)

/-- Called when `login` leaves team `org/team`. -/
def revokeStewardTokens (state : State) (org team login : String) (now : DateTime) : Nat × State :=
  let bots := (state.bots.values.filter fun bot => bot.stewardedBy org team).map BotRecord.id
  state.revokeMatching now fun record =>
    bots.contains record.botId && record.issuedBy = some login

/-- Called when the account can no longer authenticate. -/
def revokeTokensIssuedBy (state : State) (login : String) (now : DateTime) : Nat × State :=
  let bots := (state.bots.values.filter fun bot => bot.ownerKind = .organization).map BotRecord.id
  state.revokeMatching now fun record =>
    bots.contains record.botId && record.issuedBy = some login

def revokeRefreshFamily (state : State) (botId : Uuid) (now : DateTime) : State :=
  let state := state.dropRefresh fun token => token.botId = botId
  match state.bots.lookup botId with
  | some bot => { state with bots := state.bots.insert botId (bot.regenerated now) }
  | none => state

/-- The in-place edits of every call that moves an account's epoch: `edited` before the epoch is
    checked, the credentials after it. -/
def epochMoved (state : State) (login : String) (edited : UserAccount) (now : DateTime) :
    Except (ForgeError × State) (UserAccount × State) :=
  match nextAuthEpoch edited.authEpoch with
  | .error error => .error (error, { state with accounts := state.accounts.insert login edited })
  | .ok authEpoch =>
    let updated := { edited with authEpoch, updatedAt := now }
    let state := { state with accounts := state.accounts.insert login updated }
    .ok (updated, (state.endSessions login).invalidateAccountBots login now)

def isActive (state : State) (login : String) : Bool :=
  (state.accounts.lookup login).any fun account => account.status.permitsAuthentication

def isTeamMember (state : State) (org team login : String) : Bool :=
  (state.auth.teams.lookup (org, team)).any fun stored => stored.members.contains login

/-- An active member of the bot's steward team, or an active forge administrator. Never true
    for a person's bot. -/
def isSteward (state : State) (bot : BotRecord) (actor : String) : Bool :=
  bot.ownerKind = .organization &&
    (state.isGlobalAdmin actor ||
      (state.isActive actor && bot.stewardTeam.any fun team => state.isTeamMember bot.owner team actor))

def mayManageBot (state : State) (actor : String) (bot : BotRecord) : Bool :=
  match bot.ownerKind with
  | .user => bot.owner = actor
  | .organization => state.isSteward bot actor

/-- The bot, when `actor` may manage it. Any other bot is not found. -/
def managedBot (state : State) (actor : String) (botId : Uuid) : Except ForgeError BotRecord :=
  match state.bots.lookup botId with
  | some bot =>
    if state.mayManageBot actor bot then .ok bot else .error (.notFound s!"bot {botId}")
  | none => .error (.notFound s!"bot {botId}")

/-- Of the keys `picks` matches, the last of the newest ones, as `max_by_key` answers. -/
def newestKey (state : State) (picks : BotKeyRecord → Bool) : Option Secret :=
  ((state.auth.botKeys.values.filter picks).foldl (fun best key =>
    match best with
    | some newest => if newest.createdAt ≤ key.createdAt then some key else some newest
    | none => some key) none).map BotKeyRecord.keyId

def liveKeyId (state : State) (botId : Uuid) : Option Secret :=
  state.newestKey fun key => key.botId = botId && key.revokedAt.isNone

/-- A team bot's token works only while whoever issued it may still steward the bot. -/
def issuerStillStewards (state : State) (bot : BotRecord) (record : BotAccessTokenRecord) : Bool :=
  match bot.ownerKind with
  | .user => true
  | .organization => record.issuedBy.any fun issuer => state.isSteward bot issuer

end State

/-- A section that first makes changes it never takes back, and may fail in spite of what it
    changed. -/
def Method.settledAfter {α : Type} (prepare : State → State)
    (f : ForgeCore → Outcome (Except Failure α)) : Method α :=
  let prepared (core : ForgeCore) : ForgeCore := { core with state := prepare core.state }
  ExceptT.mk (.write (fun core => ((f (prepared core)).settle (prepared core)).2) fun core =>
    .done (((f (prepared core)).settle (prepared core)).1.bind id))

abbrev Method.settled {α : Type} (f : ForgeCore → Outcome (Except Failure α)) : Method α :=
  .settledAfter id f

end Jeryu.Core
