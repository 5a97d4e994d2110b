import Jeryu.Auth.BotTokens

namespace Jeryu.Core

open KeyedMap Text

structure BotRepoGrant where
  botId : Uuid
  owner : String
  repo : String
  access : BotRepoAccess
  grantedBy : String
  grantedAt : DateTime

def State.administersRepository (state : State) (actor owner repo : String) : Bool :=
  state.isGlobalAdmin actor || (state.isActive actor &&
    (state.repoGrants.lookup (actor, owner, repo)).any fun grant => grant.access = .admin)

/-- The team bot and repository id for a grant change, when `actor` administers that
    repository. -/
def State.grantingContext (state : State) (actor : String) (botId : Uuid) (owner repo : String) :
    Except ForgeError (BotRecord × Uuid) :=
  match state.repos.lookup (owner, repo) with
  | none => .error (.notFound s!"repository {owner}/{repo}")
  | some repository =>
    if !state.administersRepository actor owner repo then
      .error (.forbidden "repository administrator required to change a bot's grant")
    else match (state.bots.lookup botId).filter fun bot => bot.ownerKind = .organization with
      | none => .error (explainBot (.notFound s!"team bot {botId}"))
      | some bot => .ok (bot, repository.id)

def grantBotRepositoryLocked (actor : String) (botId : Uuid) (owner repo : String)
    (access : BotRepoAccess) (now : DateTime) (core : ForgeCore) : Outcome (BotRecord × BotRepoGrant) :=
  match core.state.grantingContext actor botId owner repo with
  | .error error => .refuse error
  | .ok (bot, repoId) =>
    if bot.status = .revoked then .refuse (.notFound s!"bot {botId}")
    else
      let botRepoGrants := core.state.botRepoGrants.insert (botId, repoId) access
      .commit [] 0 { core.state with botRepoGrants } none (bot, ⟨botId, owner, repo, access, actor, now⟩)

def grantBotRepository (actor : String) (botId : Uuid) (owner repo : String)
    (access : BotRepoAccess) : Method BotRepoGrant := do
  let now ← utcNow
  let (bot, grant) ← .locked (grantBotRepositoryLocked actor botId owner repo access now)
  appendAuditAs actor "bot.grant" bot.subject .completed
  return grant

/-- Removing a grant it does not hold succeeds, and is not audited. -/
def revokeBotRepositoryGrantLocked (actor : String) (botId : Uuid) (owner repo : String)
    (core : ForgeCore) : Outcome (BotRecord × Bool) :=
  match core.state.grantingContext actor botId owner repo with
  | .error error => .refuse error
  | .ok (bot, repoId) =>
    if (core.state.botRepoGrants.lookup (botId, repoId)).isNone then .unchanged (bot, false)
    else
      let botRepoGrants := core.state.botRepoGrants.erase (botId, repoId)
      .commit [] 0 { core.state with botRepoGrants } none (bot, true)

def revokeBotRepositoryGrant (actor : String) (botId : Uuid) (owner repo : String) : Method Unit := do
  let (bot, removed) ← .locked (revokeBotRepositoryGrantLocked actor botId owner repo)
  if removed then appendAuditAs actor "bot.ungrant" bot.subject .completed

def revokeIssuedTeamBotTokensLocked (actor : String) (now : DateTime) (core : ForgeCore) :
    Outcome Nat :=
  let (revoked, state) := core.state.revokeTokensIssuedBy actor now
  if revoked = 0 then .unchanged 0 else .commit [] 0 state none revoked

/-- Revoke every live agent token `actor` issued for any team bot, in one action. -/
def revokeIssuedTeamBotTokens (actor : String) : Method Nat := do
  let now ← utcNow
  let revoked ← .locked (revokeIssuedTeamBotTokensLocked actor now)
  if revoked ≠ 0 then appendAuditAs actor "bot.token.revoke_issued" s!"issuer:{actor}" .completed
  return revoked

end Jeryu.Core
