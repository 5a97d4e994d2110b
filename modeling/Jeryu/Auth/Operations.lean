import Jeryu.Auth.Refresh

namespace Jeryu.Core

open KeyedMap Text

structure BotObservation where
  keyId : Secret
  action : String
  outcome : String
  scope : String
  repo : Option String
  sessionId : Option String
  success : Bool
  mutation : Bool
  heartbeat : Bool

inductive BotOperationGate where
  | start
  | replay (result : OperationResult)
  | inProgress

def activityCap : Nat := 500

def withinCoalesce (now past : DateTime) : Bool := now - past < 60 * second

def BotObservation.containsSecret (observation : BotObservation) : Bool :=
  [observation.action, observation.outcome, observation.scope, observation.repo.getD "",
    observation.sessionId.getD ""].any fun field => contains field "jbk_" || contains field "jbr_"

/-- Drop the bot's oldest events over the cap. -/
def capBotActivity (events : List BotActivityEvent) (botId : Uuid) : List BotActivityEvent :=
  let count := (events.filter fun event => event.botId = botId).length
  (events.foldl (fun (kept, drops) event =>
    if event.botId ≠ botId || drops = 0 then (kept ++ [event], drops) else (kept, drops - 1))
    ([], count - activityCap)).1

/-- What a call says of its bot, whether or not it opens a new entry of its activity. -/
def BotRecord.observed (bot : BotRecord) (observation : BotObservation) (now : DateTime) : BotRecord :=
  { bot with
    lastAction := some observation.action
    lastRepo := observation.repo
    lastSuccessfulAccess := if observation.success then some now else bot.lastSuccessfulAccess
    lastAuth := if observation.success then some now else bot.lastAuth
    lastMutation := if observation.mutation then some now else bot.lastMutation }

def noteBotObservationLocked (botId : Uuid) (observation : BotObservation) (now : DateTime)
    (core : ForgeCore) : Outcome Unit :=
  let withBot (bot : BotRecord) : State :=
    { core.state with bots := core.state.bots.insert botId bot }
  match core.state.bots.lookup botId with
  | none => .refuse (.notFound s!"bot {botId}")
  | some bot =>
    if observation.heartbeat then
      if bot.lastHeartbeat.any fun previous => withinCoalesce now previous then .unchanged ()
      else .commit [] 0 (withBot { bot with lastHeartbeat := some now }) none ()
    else if bot.lastOutcome = some observation.outcome && withinCoalesce now bot.updatedAt then
      .direct [] (withBot (bot.observed observation now)) ()
    else
      let event : BotActivityEvent :=
        { id := core.uuids, botId, keyId := observation.keyId, repo := observation.repo
          sessionId := observation.sessionId, action := observation.action
          outcome := observation.outcome, scope := observation.scope, createdAt := now }
      let recent := (core.state.auth.botActivity ++ [event]).filter fun event =>
        event.botId ≠ bot.id || event.createdAt ≥ now - 90 * day
      let state := withBot { bot.observed observation now with
        lastOutcome := some observation.outcome, updatedAt := now }
      .commit [] 1 { state with auth := { state.auth with
        botActivity := capBotActivity recent bot.id } } none ()

def noteBotObservation (botId : Uuid) (observation : BotObservation) : Method Unit := do
  .ofExcept (requireName "action" observation.action)
  if observation.containsSecret then
    throw (.error (.validation "observation must not contain a bot credential"))
  let now ← utcNow
  .locked (noteBotObservationLocked botId observation now)

/-- A replay and an operation in progress keep the pruned rows in memory only. -/
def reserveBotOperationLocked (botId : Uuid) (operation requestKey bodyDigest : String)
    (now : DateTime) (core : ForgeCore) : Outcome BotOperationGate :=
  if (core.state.bots.lookup botId).isNone then .refuse (.notFound s!"bot {botId}")
  else
    let pruned := core.state.pruneBotOperations now
    let key := (botId, operation, RequestKey.plain requestKey)
    match pruned.auth.botOperations.lookup key with
    | some existing =>
      if existing.bodyDigest ≠ bodyDigest then .refuse (.conflict "idempotency_conflict")
      else match existing.result with
        | some result => .direct [] pruned (.replay result)
        | none => .direct [] pruned .inProgress
    | none =>
      let record : BotOperationRecord :=
        { botId, operation, requestKey := .plain requestKey, bodyDigest, result := none
          createdAt := now }
      .commit [] 0 (pruned.withOperations fun rows => rows.insert key record) none .start

def requirePlainOperation (operation : String) : Except ForgeError Unit :=
  if operation = refreshOperation then .error (.validation "reserved bot operation") else .ok ()

def reserveBotOperation (botId : Uuid) (operation requestKey bodyDigest : String) :
    Method BotOperationGate := do
  .ofExcept (requireName "operation" operation)
  .ofExcept (requirePlainOperation operation)
  .ofExcept (requireName "request key" requestKey)
  .ofExcept (requireDigest bodyDigest)
  let now ← utcNow
  .locked (reserveBotOperationLocked botId operation requestKey bodyDigest now)

def finishBotOperationLocked (botId : Uuid) (operation requestKey result : String)
    (core : ForgeCore) : Outcome Unit :=
  let key := (botId, operation, RequestKey.plain requestKey)
  match core.state.auth.botOperations.lookup key with
  | none => .refuse (.notFound "bot operation")
  | some existing =>
    if existing.result.isSome then .refuse (.conflict "bot operation already finished")
    else .commit [] 0 (core.state.withOperations fun rows =>
      rows.insert key { existing with result := some (.json result) }) none ()

/-- `isJson` is whether the result parses as JSON. -/
def finishBotOperation (botId : Uuid) (operation requestKey result : String) (isJson : Bool) :
    Method Unit := do
  if !isJson then throw (.error (.validation "operation result must be json"))
  .ofExcept (requirePlainOperation operation)
  .locked (finishBotOperationLocked botId operation requestKey result)

end Jeryu.Core
