import Jeryu.Core.PullRequests
import Jeryu.Auth.Credentials
import Jeryu.Library.Glob

namespace Jeryu.Core

open KeyedMap Text

namespace BotReach

def refs : BotReach → Option (List String)
  | .general refs | .owners _ refs | .repositories _ refs | .task _ _ _ refs => refs

end BotReach

/-- Git full-ref rules, restricted to branch and tag namespaces. Patterns use the same rules
    except that `*` can match any sequence, including a slash. -/
def validBotRef (value : String) (pattern : Bool) : Bool :=
  (startsWith value "refs/heads/" || startsWith value "refs/tags/") &&
    len value ≤ 1024 && !endsWith value "." && !contains value ".." && !contains value "@\x7b" &&
    !(value.toList.any fun c => c.toNat ≤ 32 || c.toNat = 127 || "~^:?[\\".toList.contains c ||
      (!pattern && c = '*')) &&
    (value.toList.splitOnP (· = '/')).all fun part =>
      !part.isEmpty && !".".toList.isPrefixOf part && !".lock".toList.isSuffixOf part

def refPatternMatches (pattern reference : String) : Bool :=
  Glob.matchSplit (pattern.toList.splitOnP (· = '*')) reference.toList

namespace BotReach

def validateRefs (reach : BotReach) : Except ForgeError Unit :=
  match reach.refs with
  | none => .ok ()
  | some refs =>
    if refs.length > 100 || refs.any fun pattern => !validBotRef pattern true then
      .error (.validation ("invalid_reach_refs: expected at most 100 full refs/heads/ or refs/tags/ " ++
        "patterns, each at most 1024 bytes; only * is a wildcard"))
    else .ok ()

def allowsRef (reach : BotReach) (reference : String) : Bool :=
  match reach.refs with
  | none => true
  | some patterns =>
    validBotRef reference false &&
      patterns.any fun pattern => validBotRef pattern true && refPatternMatches pattern reference

end BotReach

def RepoAccessLevel.allowsRead : RepoAccessLevel → Bool
  | .read | .write | .admin => true

def RepoAccessLevel.allowsWrite (level : RepoAccessLevel) : Bool := level = .write || level = .admin

def BotRepoAccess.allowsWrite (access : BotRepoAccess) : Bool := access = .write

structure BotCall where
  botId : Uuid
  generation : Nat
  keyId : Secret
  owner : String
  repo : String
  effect : BotEffect
  taskKind : Option BotTaskKind
  taskId : Option String

namespace State

/-- Explicit repository grant, plus a public read for any active account. Forge admin is not a
    grant. -/
def ownerGrantAllows (state : State) (login owner repo : String) (write : Bool) : Bool :=
  match state.accounts.lookup login with
  | none => false
  | some account =>
    if !account.status.permitsAuthentication then false
    else match state.repos.lookup (owner, repo) with
      | none => false
      | some repoRow =>
        if !write && !repoRow.isPrivate then true
        else match state.repoGrants.lookup (login, owner, repo) with
          | none => false
          | some grant => if write then grant.access.allowsWrite else grant.access.allowsRead

/-- A team bot's own grant, plus a public read, as for any active principal. -/
def grantAllows (state : State) (botId : Uuid) (owner repo : String) (write : Bool) : Bool :=
  match state.repos.lookup (owner, repo) with
  | none => false
  | some repository =>
    if !write && !repository.isPrivate then true
    else (state.grantAccess botId owner repo).any fun access => !write || access.allowsWrite

def botGrantAllows (state : State) (bot : BotRecord) (owner repo : String) (write : Bool) : Bool :=
  match bot.ownerKind with
  | .user => state.ownerGrantAllows bot.owner owner repo write
  | .organization => state.grantAllows bot.id owner repo write

def ownerHasGrant (state : State) (login owner repo : String) : Bool :=
  (state.accounts.lookup login).any fun account =>
    account.status.permitsAuthentication &&
      (state.repoGrants.lookup (login, owner, repo)).any fun grant => grant.access.allowsRead

/-- The explicit grant a bot acts under: its owner's for a person's bot, its own for a team
    bot. -/
def botHasGrant (state : State) (bot : BotRecord) (owner repo : String) : Bool :=
  match bot.ownerKind with
  | .user => state.ownerHasGrant bot.owner owner repo
  | .organization => (state.grantAccess bot.id owner repo).isSome

def reachAllows (state : State) (bot : BotRecord) (call : BotCall) : Bool :=
  match bot.reach with
  | .general _ => true
  | .owners owners _ => owners.contains call.owner && state.botHasGrant bot call.owner call.repo
  | .repositories repos _ => repos.any fun repo => repo.owner = call.owner && repo.name = call.repo
  | .task repo taskKind taskId _ =>
    if repo.owner ≠ call.owner || repo.name ≠ call.repo then false
    else if call.effect = .read then true
    else call.taskKind = some taskKind && call.taskId = some taskId

def ownerIsKnown (state : State) (owner : String) : Bool :=
  (state.accounts.lookup owner).isSome || (state.users.lookup owner).isSome ||
    (state.organizations.lookup owner).isSome || state.repos.keys.any fun key => key.1 = owner

end State

def reachDenialCode (reach : BotReach) (call : BotCall) : String :=
  match reach with
  | .task repo .. =>
    if call.effect = .write && repo.owner = call.owner && repo.name = call.repo then "task_not_granted"
    else "repo_not_granted"
  | _ => "repo_not_granted"

def getIssue (owner repo : String) (number : Nat) : Method Issue :=
  .reading fun core =>
    match core.state.issues.lookup (owner, repo, number) with
    | some issue => .ok issue
    | none => .error (.notFound s!"issue {owner}/{repo}#{number}")

/-- `str::parse::<u64>`. -/
def parseNumber (text : String) : Option Nat :=
  let digits := match text.toList with
    | '+' :: rest => rest
    | rest => rest
  if digits.isEmpty || !digits.all isAsciiDigit then none
  else
    let number := digits.foldl (fun n c => 10 * n + (c.toNat - 48)) 0
    if number < 2 ^ 64 then some number else none

def requireReadableRepo (actor owner repo : String) : Method BotRepoRef := do
  let _ ← canonicalRepository owner repo
  .reading fun core =>
    if core.state.ownerGrantAllows actor owner repo false then .ok ⟨owner, repo⟩
    else .error (.validation "reach cannot grant a repository the account cannot access")

def validateTask (repo : BotRepoRef) (kind : BotTaskKind) (taskId : String) : Method Unit := do
  let taskId := trim taskId
  if taskId = "" then throw (.error (.validation "task id cannot be empty"))
  match kind with
  | .branch =>
    if taskId.toList.any isWhitespace || contains taskId ".." || startsWith taskId "/" then
      throw (.error (.validation "branch task id must be a single branch name"))
  | .issue =>
    match parseNumber taskId with
    | none => throw (.error (.validation "issue or pull task id must be a number"))
    | some number => let _ ← getIssue repo.owner repo.name number
  | .pull =>
    match parseNumber taskId with
    | none => throw (.error (.validation "issue or pull task id must be a number"))
    | some number => let _ ← getPullRequest repo.owner repo.name number

def ownersCountError : ForgeError :=
  .validation "invalid_reach_owners: owners reach needs between 1 and 20 distinct owners"

/-- Distinct owners, trimmed, lowercased and in first-seen order. -/
def State.normalizeOwners (state : State) : List String → List String → Except ForgeError (List String)
  | [], seen => .ok seen
  | owner :: rest, seen =>
    let owner := toAsciiLowercase (trim owner)
    if owner = "" || owner.toList.contains '/' then .error (.validation
      "invalid_reach_owners: each owner must be a non-empty account or organization name")
    else if seen.contains owner then state.normalizeOwners rest seen
    else if seen.length = 20 then .error ownersCountError
    else if !state.ownerIsKnown owner then .error (.validation
      s!"invalid_reach_owners: owner {owner} is not an account or organization on this forge")
    else state.normalizeOwners rest (seen ++ [owner])

def normalizeRepos (actor : String) : List BotRepoRef → List BotRepoRef → Method (List BotRepoRef)
  | [], seen => return seen
  | repo :: rest, seen => do
    let normalized ← requireReadableRepo actor repo.owner repo.name
    normalizeRepos actor rest (if seen.contains normalized then seen else seen ++ [normalized])

def normalizeReach (actor : String) (reach : BotReach) : Method BotReach := do
  .ofExcept reach.validateRefs
  match reach with
  | .general refs => return .general refs
  | .owners owners refs =>
    if owners.isEmpty then throw (.error ownersCountError)
    let seen ← .reading fun core => core.state.normalizeOwners owners []
    return .owners seen refs
  | .repositories repos refs =>
    if repos.isEmpty || repos.length > 100 then throw (.error (.validation
      "repository reach needs between 1 and 100 repositories"))
    let seen ← normalizeRepos actor repos []
    return .repositories seen refs
  | .task repo taskKind taskId refs =>
    let repo ← requireReadableRepo actor repo.owner repo.name
    validateTask repo taskKind taskId
    return .task repo taskKind (trim taskId) refs

end Jeryu.Core
