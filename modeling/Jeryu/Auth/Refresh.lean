import Jeryu.Auth.Bots

namespace Jeryu.Core

open KeyedMap Text

/-- An enrollment key as presented: its id and its secret, `none` where the text has another
    shape. -/
abbrev PresentedKey := Option (Secret × Secret)

def refreshTtl : Int := 12 * hour

def rotationGrace : Int := 5 * minute

def operationTtl : Int := 24 * hour

def maxLiveRefresh : Nat := 5

def refreshOperation : String := "bot.token.refresh"

namespace State

def withRefresh (state : State)
    (f : HashMap Digest BotRefreshRecord → HashMap Digest BotRefreshRecord) : State :=
  { state with auth := { state.auth with botRefresh := f state.auth.botRefresh } }

def withOperations (state : State)
    (f : HashMap (Uuid × String × RequestKey) BotOperationRecord →
      HashMap (Uuid × String × RequestKey) BotOperationRecord) : State :=
  { state with auth := { state.auth with botOperations := f state.auth.botOperations } }

/-- The unused tokens of the bot, the first to expire first. -/
def unusedRefresh (state : State) (botId : Uuid) : List BotRefreshRecord :=
  (state.auth.botRefresh.values.filter fun token => token.botId = botId && token.usedAt.isNone).insertionSort
    fun a b => a.expiresAt ≤ b.expiresAt

/-- Drop the bot's expired tokens, and the unused ones over the cap that expire first. -/
def capLiveRefresh (state : State) (botId : Uuid) (now : DateTime) : State :=
  let state := state.withRefresh fun rows => rows.retain fun _ token =>
    token.botId != botId || token.expiresAt > now
  let live := state.unusedRefresh botId
  let excess := (live.take (live.length - maxLiveRefresh)).map BotRefreshRecord.tokenHash
  state.withRefresh fun rows => rows.removeAll excess

def pruneBotOperations (state : State) (now : DateTime) : State :=
  state.withOperations fun rows => rows.retain fun _ record =>
    record.createdAt ≥ now - (if record.operation = refreshOperation then rotationGrace else operationTtl)

/-- A token spent, and the authentication noted on its bot. -/
def spendRefresh (state : State) (presented : Digest) (now : DateTime) : State :=
  state.withRefresh fun rows => match rows.lookup presented with
    | some row => rows.insert presented { row with usedAt := some now }
    | none => rows

def noteAuth (state : State) (botId : Uuid) (now : DateTime) : State :=
  match state.bots.lookup botId with
  | some stored =>
    { state with bots := state.bots.insert botId { stored with lastAuth := some now, updatedAt := now } }
  | none => state

/-- `token` is the secret drawn for it. -/
def issueRefresh (state : State) (bot : BotRecord) (key : BotKeyRecord) (token : Secret)
    (now : DateTime) : BotSession × State :=
  let record : BotRefreshRecord :=
    { tokenHash := tokenHash token, botId := bot.id, keyId := key.keyId
      generation := bot.credentialGeneration, expiresAt := now + refreshTtl, usedAt := none }
  ({ bot := bot.summary, keyId := key.keyId, generation := bot.credentialGeneration
     refreshToken := token, refreshExpiresAt := record.expiresAt },
    (state.withRefresh fun rows => rows.insert record.tokenHash record).capLiveRefresh bot.id now)

end State

/-- A team bot authenticates with agent tokens only. -/
def exchangeBotEnrollmentKeyLocked (keyId : Secret) (verifiedHash : Digest)
    (random : Except ForgeError Unit) (now : DateTime) (core : ForgeCore) :
    Outcome (Except Failure (BotRecord × BotSession)) :=
  match core.state.auth.botKeys.lookup keyId with
  | none => .unchanged (.error invalidBot)
  | some key =>
    if key.secretHash != verifiedHash || !key.isLive now then .unchanged (.error invalidBot)
    else match core.state.bots.lookup key.botId with
      | none => .unchanged (.error invalidBot)
      | some bot =>
        if bot.ownerKind = .organization || !core.state.botAccountMatches bot then
          .unchanged (.error invalidBot)
        else match random with
          | .error error => .refuse error
          | .ok () =>
            let (session, state) := core.state.issueRefresh bot key core.uuids now
            .commit [] 1 (state.noteAuth bot.id now) none (.ok (bot, session))

def exchangeBotEnrollmentKey (presented : PresentedKey) (random : Except ForgeError Unit) :
    Method BotSession := do
  match presented with
  | none => throw invalidBot
  | some (keyId, secret) =>
    let verified ← .reading fun core => .ok ((core.state.auth.botKeys.lookup keyId).map (·.secretHash))
    match verified with
    | none => throw invalidBot
    | some verifiedHash =>
      if tokenHash secret ≠ verifiedHash then throw invalidBot
      let now ← utcNow
      let (bot, session) ← .settled (exchangeBotEnrollmentKeyLocked keyId verifiedHash random now)
      recordBotAudit bot.owner "bot.token.exchange" bot.subject .completed
      return session

/-- How a presented refresh token is answered: a session, or the audit a reuse is owed. -/
inductive RefreshAnswer where
  | session (session : BotSession)
  | replayed (actor subject : String) (session : BotSession)
  | reused (actor subject : String)

/-- Reuse of a token that was already rotated revokes the family. -/
def revokeReused (existing : BotRefreshRecord) (now : DateTime) (core : ForgeCore) :
    Outcome (Except Failure RefreshAnswer) :=
  let (actor, subject) := match core.state.bots.lookup existing.botId with
    | some bot => (bot.owner, bot.subject)
    | none => ("bot", s!"{existing.botId}")
  .commit [] 0 (core.state.revokeRefreshFamily existing.botId now) none (.ok (.reused actor subject))

/-- Whether the bot, its account and the key still stand behind a stored token. -/
def State.standsBehind (state : State) (existing : BotRefreshRecord) (bot : BotRecord)
    (key : BotKeyRecord) (now : DateTime) : Bool :=
  state.botAccountMatches bot && bot.credentialGeneration = existing.generation && key.isLive now

def rotateBotRefreshTokenLocked (presented : Digest) (random : Except ForgeError Unit)
    (now : DateTime) (core : ForgeCore) : Outcome (Except Failure RefreshAnswer) :=
  match core.state.auth.botRefresh.lookup presented with
  | none => .unchanged (.error invalidBot)
  | some existing =>
    if existing.usedAt.isSome then revokeReused existing now core
    else if existing.expiresAt ≤ now then .unchanged (.error invalidBot)
    else match core.state.bots.lookup existing.botId, core.state.auth.botKeys.lookup existing.keyId with
      | some bot, some key =>
        if !core.state.standsBehind existing bot key now then .unchanged (.error invalidBot)
        else
          let spent := core.state.spendRefresh presented now
          match random with
          -- The token stays spent in memory.
          | .error error => .direct [] spent (.error (.error error))
          | .ok () =>
            let (session, state) := spent.issueRefresh bot key core.uuids now
            .commit [] 1 (state.noteAuth bot.id now) none (.ok (.session session))
      | _, _ => .unchanged (.error invalidBot)

/-- What follows the section: the audits, and a reuse is refused. -/
def answerRefresh : RefreshAnswer → Method BotSession
  | .session session => return session
  | .replayed actor subject session => do
    recordBotAudit actor "bot.refresh.replay" subject .completed
    return session
  | .reused actor subject => do
    recordBotAudit actor "bot.refresh.reuse" subject .failed
    throw invalidBot

def rotateBotRefreshToken (refreshToken : Secret) (random : Except ForgeError Unit) :
    Method BotSession := do
  let now ← utcNow
  let answer ← .settled (rotateBotRefreshTokenLocked (tokenHash refreshToken) random now)
  answerRefresh answer

section Idempotent

def requireRefreshIdempotencyKey (value : String) : Except ForgeError Unit := do
  requireName "request key" value
  if len value < 32 || len value > 128 || !all value fun c => 33 ≤ c.toNat && c.toNat ≤ 126 then
    throw (.validation "idempotency key must be 32 to 128 visible characters")

def requireDigest (bodyDigest : String) : Except ForgeError Unit :=
  if len bodyDigest ≠ 64 || !all bodyDigest isAsciiHexdigit then
    .error (.validation "operation digest must be 64 hex characters")
  else .ok ()

def refreshOperationKey (botId : Uuid) (presented : Digest) (requestKey : String) :
    Uuid × String × RequestKey :=
  (botId, refreshOperation, .refresh presented requestKey)

def vaultUnavailable : Failure :=
  .error (.validation "vault_unavailable: this server has no vault key configured")

def sealReplay (vaultKey : String) (presented : Digest) (session : BotSession) : SealedReplay where
  vaultKey
  binding := ⟨presented, session.bot.id, session.generation⟩
  replay := ⟨session.bot.id, session.keyId, session.generation, session.refreshToken,
    session.refreshExpiresAt⟩

/-- `none` is an invalid credential: the stored row is not this token's unused successor. -/
def State.openRefreshReplay (state : State) (vaultKey : String) (existing : BotRefreshRecord)
    (presented : Digest) (result : OperationResult) (bot : BotRecord) (now : DateTime) :
    Option BotSession :=
  match result with
  | .json _ => none
  | .sealed stored =>
    let replay := stored.replay
    if stored.vaultKey ≠ vaultKey ||
        stored.binding ≠ ⟨presented, existing.botId, existing.generation⟩ then none
    else if replay.botId ≠ existing.botId || replay.keyId ≠ existing.keyId ||
        replay.generation ≠ existing.generation ||
        replay.generation ≠ bot.credentialGeneration then none
    else match state.auth.botRefresh.lookup (tokenHash replay.refreshToken) with
      | none => none
      | some successor =>
        if successor.botId ≠ existing.botId || successor.keyId ≠ existing.keyId ||
            successor.generation ≠ existing.generation || successor.usedAt.isSome ||
            successor.expiresAt ≤ now then none
        else some
          { bot := bot.summary, keyId := existing.keyId, generation := existing.generation
            refreshToken := replay.refreshToken, refreshExpiresAt := replay.refreshExpiresAt }

def withinRotationGrace (now usedAt : DateTime) : Bool := now ≤ usedAt + rotationGrace

/-- A rotation that is the first of its key: the token is spent, its successor issued and sealed
    for a lost response. What fails on the way is taken back. -/
def rotateFirst (vaultKey : Option String) (existing : BotRefreshRecord) (presented : Digest)
    (requestKey bodyDigest : String) (random : Except ForgeError Unit) (bot : BotRecord)
    (key : BotKeyRecord) (now : DateTime) (core : ForgeCore) : Outcome (Except Failure RefreshAnswer) :=
  match random, vaultKey with
  | .error error, _ => .refuse error
  | .ok (), none => .unchanged (.error vaultUnavailable)
  | .ok (), some vaultKey =>
    let (session, state) := (core.state.spendRefresh presented now).issueRefresh bot key core.uuids now
    let operation : BotOperationRecord :=
      { botId := existing.botId, operation := refreshOperation
        requestKey := .refresh presented requestKey, bodyDigest
        result := some (.sealed (sealReplay vaultKey presented session)), createdAt := now }
    let state := state.withOperations fun rows =>
      rows.insert (refreshOperationKey existing.botId presented requestKey) operation
    .commit [] 1 (state.noteAuth bot.id now) none (.ok (.session session))

/-- A used token presented again under a key it was rotated with. -/
def replayRefresh (vaultKey : Option String) (existing : BotRefreshRecord) (presented : Digest)
    (result : OperationResult) (bot : BotRecord) (core : ForgeCore) :
    Outcome (Except Failure RefreshAnswer) :=
  match vaultKey with
  | none => .unchanged (.error vaultUnavailable)
  | some vaultKey =>
    match core.state.openRefreshReplay vaultKey existing presented result bot core.now with
    | some session => .unchanged (.ok (.replayed bot.owner bot.subject session))
    | none => .unchanged (.error invalidBot)

/-- Expired operations are pruned once the token is found, whatever the answer. -/
def pruneForRefresh (presented : Digest) (now : DateTime) (state : State) : State :=
  if (state.auth.botRefresh.lookup presented).isSome then state.pruneBotOperations now else state

def rotateIdempotentLocked (vaultKey : Option String) (presented : Digest)
    (requestKey bodyDigest : String) (random : Except ForgeError Unit) (now : DateTime)
    (core : ForgeCore) : Outcome (Except Failure RefreshAnswer) :=
  match core.state.auth.botRefresh.lookup presented with
  | none => .unchanged (.error invalidBot)
  | some existing =>
    let stored := core.state.auth.botOperations.lookup
      (refreshOperationKey existing.botId presented requestKey)
    if stored.any fun operation => operation.bodyDigest ≠ bodyDigest then
      .refuse (.conflict "idempotency_conflict")
    else if stored.any fun operation => operation.result.isNone then
      .refuse (.conflict "idempotency_in_progress")
    else match core.state.bots.lookup existing.botId, core.state.auth.botKeys.lookup existing.keyId with
      | some bot, some key =>
        -- The same checks as a fresh rotation.
        if !core.state.standsBehind existing bot key now then .unchanged (.error invalidBot)
        else match stored.bind BotOperationRecord.result, existing.usedAt with
          | some _, none => .unchanged (.error invalidBot)
          | some result, some usedAt =>
            if withinRotationGrace now usedAt then
              replayRefresh vaultKey existing presented result bot core
            else revokeReused existing now core
          | none, some _ => revokeReused existing now core
          | none, none =>
            if existing.expiresAt ≤ now then .unchanged (.error invalidBot)
            else rotateFirst vaultKey existing presented requestKey bodyDigest random bot key now core
      | _, _ => .unchanged (.error invalidBot)

/-- `random` is what the random source and the vault's seal answer. -/
def rotateBotRefreshTokenIdempotent (vaultKey : Option String) (refreshToken : Secret)
    (requestKey bodyDigest : String) (random : Except ForgeError Unit) : Method BotSession := do
  .ofExcept (requireRefreshIdempotencyKey requestKey)
  .ofExcept (requireDigest bodyDigest)
  let now ← utcNow
  let answer ← .settledAfter (pruneForRefresh (tokenHash refreshToken) now)
    (rotateIdempotentLocked vaultKey (tokenHash refreshToken) requestKey bodyDigest random now)
  answerRefresh answer

end Idempotent

end Jeryu.Core
