import Jeryu.Auth.Refresh

namespace Jeryu.Core

open KeyedMap Text

structure BotAccessTokenIssued where
  bot : BotSummary
  tokenId : Secret
  token : Secret
  label : Option String
  createdAt : DateTime
  expiresAt : DateTime

structure BotAccessTokenSummary where
  tokenId : Secret
  botId : Uuid
  label : Option String
  issuedBy : Option String
  createdAt : DateTime
  expiresAt : DateTime
  lastUsedAt : Option DateTime
  revokedAt : Option DateTime

def BotAccessTokenRecord.summary (record : BotAccessTokenRecord) : BotAccessTokenSummary :=
  { record with }

structure BotAccessTokenAuth where
  bot : BotSummary
  tokenId : Secret
  keyId : Secret
  generation : Nat
  expiresAt : DateTime

def maxLiveTokens : Nat := 10

def maxTtlDays : Nat := 365

def tokenLabel (label : Option String) : Except ForgeError (Option String) :=
  match label.map trim with
  | none | some "" => .ok none
  | some text =>
    if text.length > 80 then .error (.validation "label must be at most 80 characters")
    else .ok (some text)

def tokenTtl (ttlDays : Option Nat) : Except ForgeError Nat :=
  let ttlDays := ttlDays.getD 90
  if ttlDays = 0 || ttlDays > maxTtlDays then
    .error (.validation s!"ttl_days must be between 1 and {maxTtlDays}")
  else .ok ttlDays

def State.withToken (state : State) (record : BotAccessTokenRecord) : State :=
  { state with auth := { state.auth with
      botAccessTokens := state.auth.botAccessTokens.insert record.tokenHash record } }

/-- The newest live key of the bot. -/
def State.newestLiveKey (state : State) (bot : BotRecord) (now : DateTime) : Option Secret :=
  state.newestKey fun key => key.botId = bot.id && key.isLive now

def issueBotAccessTokenLocked (actor : String) (botId : Uuid) (label : Option String) (ttlDays : Nat)
    (now : DateTime) (core : ForgeCore) : Outcome (BotRecord × BotAccessTokenIssued) :=
  match core.state.managedBot actor botId with
  | .error error => .refuse error
  | .ok bot =>
    if !core.state.botAccountMatches bot then
      .refuse (.validation "the bot is not active; agent tokens need an active bot")
    else match core.state.newestLiveKey bot now with
      | none => .refuse (.validation "the bot has no live key; rotate its key first")
      | some keyId =>
        let live := (core.state.auth.botAccessTokens.values.filter fun record =>
          record.botId = bot.id && record.isLive bot now).length
        if live ≥ maxLiveTokens then .refuse (.conflict
          s!"the bot already has {maxLiveTokens} live agent tokens; revoke one first")
        else
          let token := core.uuids
          let record : BotAccessTokenRecord :=
            { tokenHash := tokenHash token, tokenId := core.uuids + 1, botId := bot.id, keyId
              generation := bot.credentialGeneration, label, issuedBy := some actor, createdAt := now
              expiresAt := now + ttlDays * day, lastUsedAt := none, revokedAt := none }
          .commit [] 2 (core.state.withToken record) none
            (bot, ⟨bot.summary, record.tokenId, token, label, record.createdAt, record.expiresAt⟩)

/-- `random` is what the random source answers. -/
def issueBotAccessToken (actor : String) (botId : Uuid) (label : Option String)
    (ttlDays : Option Nat) (random : Except ForgeError Unit) : Method BotAccessTokenIssued := do
  let _ ← requireActiveAccount actor
  let ttlDays ← .ofExcept (tokenTtl ttlDays)
  let label ← .ofExcept (tokenLabel label)
  .ofExcept random
  let now ← utcNow
  let (bot, issued) ← .locked (issueBotAccessTokenLocked actor botId label ttlDays now)
  recordBotAudit actor "bot.token.issue" bot.subject .completed
  return issued

/-- Revoking an already revoked token succeeds. -/
def revokeBotAccessTokenLocked (actor : String) (botId : Uuid) (tokenId : Secret) (now : DateTime)
    (core : ForgeCore) : Outcome (BotRecord × BotAccessTokenSummary) :=
  match core.state.managedBot actor botId with
  | .error error => .refuse error
  | .ok bot =>
    match core.state.auth.botAccessTokens.pairs.find? fun (_, record) =>
        record.botId = botId && record.tokenId = tokenId with
    | none => .refuse (.notFound s!"agent token {tokenId}")
    | some (hash, record) =>
      let revoked := { record with revokedAt := some (record.revokedAt.getD now) }
      let botAccessTokens := core.state.auth.botAccessTokens.insert hash revoked
      .commit [] 0 { core.state with auth := { core.state.auth with botAccessTokens } } none
        (bot, revoked.summary)

def revokeBotAccessToken (actor : String) (botId : Uuid) (tokenId : Secret) :
    Method BotAccessTokenSummary := do
  let now ← utcNow
  let (bot, summary) ← .locked (revokeBotAccessTokenLocked actor botId tokenId now)
  recordBotAudit actor "bot.token.revoke" bot.subject .completed
  return summary

def invalidToken : ForgeError := explainBot (.validation "invalid agent token")

/-- What a presented agent token stands for, and whether its last use is due to be noted. -/
def State.tokenAuth (state : State) (token : Secret) (now : DateTime) :
    Except ForgeError (BotAccessTokenAuth × Bool) :=
  match state.auth.botAccessTokens.lookup (tokenHash token) with
  | none => .error invalidToken
  | some record =>
    match state.bots.lookup record.botId with
    | none => .error invalidToken
    | some bot =>
      if !state.botAccountMatches bot || !record.isLive bot now ||
          !state.issuerStillStewards bot record then .error invalidToken
      else match state.newestLiveKey bot now with
        | none => .error invalidToken
        | some keyId => .ok (⟨bot.summary, record.tokenId, keyId, record.generation, record.expiresAt⟩,
            record.lastUsedAt.all fun used => now - used ≥ 60 * second)

/-- Last use is advisory and kept in memory. -/
def noteTokenUseLocked (token : Secret) (now : DateTime) (core : ForgeCore) : Outcome Unit :=
  match core.state.auth.botAccessTokens.lookup (tokenHash token) with
  | none => .unchanged ()
  | some record =>
    let botAccessTokens := core.state.auth.botAccessTokens.insert (tokenHash token)
      { record with lastUsedAt := some now }
    .direct [] { core.state with auth := { core.state.auth with botAccessTokens } } ()

/-- `none` is a text no agent token has the shape of. -/
def authenticateBotAccessToken (presented : Option Secret) : Method BotAccessTokenAuth := do
  match presented with
  | none => throw (.error invalidToken)
  | some token =>
    let now ← utcNow
    let (auth, stale) ← .reading fun core => core.state.tokenAuth token now
    if stale then .locked (noteTokenUseLocked token now)
    return auth

end Jeryu.Core
