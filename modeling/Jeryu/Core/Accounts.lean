import Jeryu.Core.Sections

namespace Jeryu.Core

open Text

def createUserLocked (request : CreateUserRequest) (core : ForgeCore) : Outcome User :=
  if (core.state.users.lookup request.login).isSome then .refuse (.conflict s!"user {request.login}")
  else
    let user : User :=
      { id := core.uuids, login := request.login, name := request.name, email := request.email
        createdAt := core.now }
    .commit [] 1 { core.state with users := core.state.users.insert request.login user } none user

def createUser (request : CreateUserRequest) : Method User := do
  .ofExcept (requireName "login" request.login)
  .locked (createUserLocked request)

def ensureUser (login : String) : Method User := do
  match ← Method.reading fun core => .ok (core.state.users.lookup login) with
  | some user => return user
  | none =>
    (createUser { login, name := none, email := none }).expect
      "ensure_user creates a unique user after not-found"

def createOrganizationLocked (request : CreateOrganizationRequest) (core : ForgeCore) :
    Outcome Organization :=
  if (core.state.organizations.lookup request.login).isSome then
    .refuse (.conflict s!"organization {request.login}")
  else
    let organization : Organization :=
      { id := core.uuids, login := request.login, displayName := request.displayName
        createdAt := core.now, owners := [], createdBy := none }
    let organizations := core.state.organizations.insert request.login organization
    .commit [] 1 { core.state with organizations } none organization

def createOrganization (request : CreateOrganizationRequest) : Method Organization := do
  .ofExcept (requireName "login" request.login)
  .locked (createOrganizationLocked request)

def requirePassword (password : String) : Except ForgeError Unit :=
  if len password < 12 then .error (.validation "password must be at least 12 bytes") else .ok ()

/-- `hash` is what `hash_password` answers. -/
def createAccountLocked (login : String) (role : UserRole) (hash : Except ForgeError String)
    (core : ForgeCore) : Outcome AccountSummary :=
  if (core.state.accounts.lookup login).isSome || (core.state.organizations.lookup login).isSome then
    .refuse (.conflict s!"account {login}")
  else match hash with
    | .error error => .refuse error
    | .ok passwordHash =>
      let account : UserAccount :=
        { canonicalLogin := login, displayName := login, passwordHash, role, status := .active
          authEpoch := 0, mustChangePassword := false, createdAt := core.now, updatedAt := core.now }
      let user : User :=
        { id := core.uuids, login, name := none, email := none, createdAt := core.now }
      let users := if (core.state.users.lookup login).isSome then core.state.users
        else core.state.users.insert login user
      let accounts := core.state.accounts.insert login account
      .commit [] 1 { core.state with users, accounts } none account.summary

def createAccount (login password : String) (role : UserRole) (hash : Except ForgeError String) :
    Method AccountSummary := do
  .ofExcept (requireLogin login)
  .ofExcept (requirePassword password)
  .locked (createAccountLocked login role hash)

def getAccount (login : String) : Method AccountSummary :=
  .reading fun core =>
    match core.state.accounts.lookup login with
    | some account => .ok account.summary
    | none => .error (.notFound s!"account {login}")

/-- By the canonical slug only, never via an alias. -/
def canonicalRepository (owner repo : String) : Method Repository :=
  .reading fun core =>
    match core.state.repos.lookup (owner, repo) with
    | some repository => .ok repository
    | none => .error (.notFound s!"repository {owner}/{repo}")

/-- Following an old-name alias. -/
def getRepository (owner repo : String) : Method Repository :=
  .reading fun core =>
    match core.state.resolveRepository owner repo with
    | some repository => .ok repository
    | none => .error (.notFound s!"repository {owner}/{repo}")

def ensureRepoExists (owner repo : String) : Method Unit := do
  let _ ← canonicalRepository owner repo

def ensureRepositoryWritable (owner repo : String) : Method Unit := do
  let repository ← getRepository owner repo
  if repository.archived then throw (.error (.repositoryArchived s!"{owner}/{repo}"))

def grantRepoAccessLocked (actor login owner repo : String) (access : RepoAccessLevel)
    (core : ForgeCore) : Outcome RepoAccessGrant :=
  let grant := { login, owner, repo, access, grantedBy := actor, grantedAt := core.now }
  let repoGrants := core.state.repoGrants.insert (login, owner, repo) grant
  .commit [] 0 { core.state with repoGrants } none grant

def grantRepoAccess (actor login owner repo : String) (access : RepoAccessLevel) :
    Method RepoAccessGrant := do
  let _ ← getAccount login
  let _ ← canonicalRepository owner repo
  .locked (grantRepoAccessLocked actor login owner repo access)

def requireRepoAdmin (actor owner repo : String) : Method Unit :=
  .reading fun core =>
    if (core.state.repoAccessForLocked actor owner repo).any RepoAccessLevel.allowsAdmin then .ok ()
    else .error (.branchProtection "repo admin access required")

def requireGlobalAdmin (actor : String) : Method Unit :=
  .reading fun core =>
    if core.state.isGlobalAdmin actor then .ok ()
    else .error (.branchProtection "global admin required")

def grantRepoAccessChecked (actor login owner repo : String) (access : RepoAccessLevel) :
    Method RepoAccessGrant := do
  let _ ← canonicalRepository owner repo
  requireRepoAdmin actor owner repo
  grantRepoAccess actor login owner repo access

def revokeRepoAccessLocked (login owner repo : String) (core : ForgeCore) : Outcome Bool :=
  let removed := (core.state.repoGrants.lookup (login, owner, repo)).isSome
  let repoGrants := core.state.repoGrants.erase (login, owner, repo)
  .commit [] 0 { core.state with repoGrants } none removed

def revokeRepoAccess (login owner repo : String) : Method Bool :=
  .locked (revokeRepoAccessLocked login owner repo)

def revokeRepoAccessChecked (actor login owner repo : String) : Method Bool := do
  let _ ← canonicalRepository owner repo
  requireRepoAdmin actor owner repo
  revokeRepoAccess login owner repo

end Jeryu.Core
