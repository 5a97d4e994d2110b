import Jeryu.Auth.Credentials
import Mathlib.Data.List.Sort

namespace Jeryu.Core

open KeyedMap Text

def maxOwners : Nat := 20

def maxMembers : Nat := 200

def sorted (names : List String) : List String := names.insertionSort (· ≤ ·)

/-- `char::to_lowercase`, as far as ASCII letters come of it. -/
def lowercased (c : Char) : List Char :=
  if c.toNat = 0x212a then ['k']
  else if c.toNat = 0x130 then ['i', Char.ofNat 0x307]
  else [toAsciiLowercaseChar c]

def slugify (value : String) : String :=
  let letters := ((trim value).toList.flatMap lowercased).map fun c =>
    if isAsciiAlphanumeric c then c else '-'
  let words := (letters.splitOnP (· = '-')).filter fun word => !word.isEmpty
  String.intercalate "-" (words.map String.ofList)

namespace State

/-- An active owner, or a forge administrator. -/
def mayRunOrganization (state : State) (actor org : String) : Bool :=
  state.isGlobalAdmin actor ||
    (state.isActive actor &&
      (state.organizations.lookup org).any fun organization => organization.owners.contains actor)

def mayViewOrganization (state : State) (actor org : String) : Bool :=
  state.mayRunOrganization actor org ||
    state.auth.teams.values.any fun team => team.organization = org && team.members.contains actor

/-- The organization, when `actor` may run it. One `actor` cannot see is not found. -/
def managedOrganization (state : State) (actor org : String) : Except ForgeError Organization :=
  if !state.isActive actor then .error (.validation "account is not active")
  else match state.organizations.lookup org with
    | none => .error (.notFound s!"organization {org}")
    | some organization =>
      if !state.mayViewOrganization actor org then .error (.notFound s!"organization {org}")
      else if !state.mayRunOrganization actor org then
        .error (.forbidden "organization owner or forge administrator required")
      else .ok organization

/-- The canonical login of an active account, from a trimmed, lowercased name. -/
def activePerson (state : State) (login : String) : Except ForgeError String :=
  let login := toAsciiLowercase (trim login)
  match state.accounts.lookup login with
  | some account =>
    if account.status.permitsAuthentication then .ok account.canonicalLogin
    else .error (.validation s!"{login} is not an active account")
  | none => .error (.validation s!"{login} is not an active account")

/-- Distinct active accounts, sorted, at most `limit`. -/
def activePeople (state : State) (logins : List String) (limit : Nat) (role : String) :
    Except ForgeError (List String) := do
  let join (people : List String) (login : String) := do
    let login ← state.activePerson login
    return if people.contains login then people else people ++ [login]
  let people ← logins.foldlM join []
  if people.length > limit then throw (.validation s!"at most {limit} {role}s may be named")
  return sorted people

end State

def displayNameOf (displayName : Option String) : Except ForgeError (Option String) :=
  match displayName.map trim with
  | none | some "" => .ok none
  | some name =>
    if name.length > 80 then .error (.validation "display name may not exceed 80 characters")
    else .ok (some name)

def createOrganizationAsLocked (actor login : String) (displayName : Option String)
    (owners : List String) (core : ForgeCore) : Outcome Organization :=
  if !core.state.isGlobalAdmin actor then
    .refuse (.forbidden "only a forge administrator may create an organization")
  else if (core.state.organizations.lookup login).isSome || (core.state.accounts.lookup login).isSome ||
      (core.state.users.lookup login).isSome then .refuse (.conflict s!"login {login} is taken")
  else match core.state.activePeople owners maxOwners "owner" with
    | .error error => .refuse error
    | .ok [] => .refuse (.validation "an organization needs at least one owner")
    | .ok owners =>
      let organization : Organization :=
        { id := core.uuids, login, displayName, createdAt := core.now, owners, createdBy := some actor }
      let organizations := core.state.organizations.insert login organization
      .commit [] 1 { core.state with organizations } none organization

def createOrganizationAs (actor login : String) (displayName : Option String) (owners : List String) :
    Method Organization := do
  .ofExcept (requireLogin login)
  let displayName ← .ofExcept (displayNameOf displayName)
  let organization ← .locked (createOrganizationAsLocked actor login displayName owners)
  appendAuditAs actor "org.create" s!"org:{login}" .completed
  return organization

/-- What a membership change answers, and whether it changed anything: a change is audited once
    it is stored. -/
def audited {α : Type} (actor action subject : String) (change : Method (α × Bool)) : Method α := do
  let (stored, changed) ← change
  if changed then appendAuditAs actor action subject .completed
  return stored

def addOrganizationOwnerLocked (actor org login : String) (core : ForgeCore) :
    Outcome (Organization × Bool) :=
  match core.state.managedOrganization actor org with
  | .error error => .refuse error
  | .ok organization =>
    match core.state.activePerson login with
    | .error error => .refuse error
    | .ok login =>
      if organization.owners.contains login then .unchanged (organization, false)
      else if organization.owners.length ≥ maxOwners then
        .refuse (.validation s!"an organization may have at most {maxOwners} owners")
      else
        let organization := { organization with owners := sorted (organization.owners ++ [login]) }
        let organizations := core.state.organizations.insert org organization
        .commit [] 0 { core.state with organizations } none (organization, true)

def addOrganizationOwner (actor org login : String) : Method Organization :=
  audited actor "org.owner.add" s!"org:{org}" (.locked (addOrganizationOwnerLocked actor org login))

/-- The last owner stays. -/
def removeOrganizationOwnerLocked (actor org login : String) (core : ForgeCore) :
    Outcome (Organization × Bool) :=
  match core.state.managedOrganization actor org with
  | .error error => .refuse error
  | .ok organization =>
    if !organization.owners.contains login then .unchanged (organization, false)
    else if organization.owners.length = 1 then
      .refuse (.validation "last_owner: add another owner before removing the last one")
    else
      let organization := { organization with owners := organization.owners.filter (· != login) }
      let organizations := core.state.organizations.insert org organization
      .commit [] 0 { core.state with organizations } none (organization, true)

def removeOrganizationOwner (actor org login : String) : Method Organization :=
  audited actor "org.owner.remove" s!"org:{org}"
    (.locked (removeOrganizationOwnerLocked actor org login))

def State.withTeam (state : State) (org slug : String) (team : Team) : State :=
  { state with auth := { state.auth with teams := state.auth.teams.insert (org, slug) team } }

def createTeamAsLocked (actor org name slug : String) (members : List String) (core : ForgeCore) :
    Outcome Team :=
  match core.state.managedOrganization actor org with
  | .error error => .refuse error
  | .ok _ =>
    if (core.state.auth.teams.lookup (org, slug)).isSome then .refuse (.conflict s!"team {org}/{slug}")
    else match core.state.activePeople members maxMembers "member" with
      | .error error => .refuse error
      | .ok members =>
        let team : Team :=
          { id := core.uuids, organization := org, slug, name := trim name, members
            createdAt := core.now }
        .commit [] 1 (core.state.withTeam org slug team) none team

structure CreateTeamRequest where
  name : String
  slug : Option String
  members : List String

/-- The members are taken as they are named. -/
def createTeamLocked (org slug : String) (request : CreateTeamRequest) (core : ForgeCore) :
    Outcome Team :=
  if (core.state.organizations.lookup org).isNone then .refuse (.notFound s!"organization {org}")
  else if (core.state.auth.teams.lookup (org, slug)).isSome then .refuse (.conflict s!"team {org}/{slug}")
  else
    let team : Team :=
      { id := core.uuids, organization := org, slug, name := request.name, members := request.members
        createdAt := core.now }
    .commit [] 1 (core.state.withTeam org slug team) none team

def createTeam (org : String) (request : CreateTeamRequest) : Method Team := do
  .ofExcept (requireName "team name" request.name)
  let slug := request.slug.getD (slugify request.name)
  .ofExcept (requireName "team slug" slug)
  .locked (createTeamLocked org slug request)

/-- The slug asked for, or one made of the name. -/
def teamSlug (name : String) (slug : Option String) : String :=
  match slug.map trim with
  | none | some "" => slugify name
  | some slug => slug

def createTeamAs (actor org name : String) (slug : Option String) (members : List String) :
    Method Team := do
  .ofExcept (requireName "team name" name)
  if (trim name).length > 80 then
    throw (.error (.validation "team name may not exceed 80 characters"))
  let slug := teamSlug name slug
  if (requireLogin slug).isOk = false then throw (.error (.validation
    "team slug must be lowercase letters, numbers, hyphen, or underscore"))
  let team ← .locked (createTeamAsLocked actor org name slug members)
  appendAuditAs actor "team.create" s!"team:{org}/{slug}" .completed
  return team

def addTeamMemberLocked (actor org team login : String) (core : ForgeCore) : Outcome (Team × Bool) :=
  match core.state.managedOrganization actor org with
  | .error error => .refuse error
  | .ok _ =>
    match core.state.auth.teams.lookup (org, team) with
    | none => .refuse (.notFound s!"team {org}/{team}")
    | some stored =>
      match core.state.activePerson login with
      | .error error => .refuse error
      | .ok login =>
        if stored.members.contains login then .unchanged (stored, false)
        else if stored.members.length ≥ maxMembers then
          .refuse (.validation s!"a team may have at most {maxMembers} members")
        else
          let stored := { stored with members := sorted (stored.members ++ [login]) }
          .commit [] 0 (core.state.withTeam org team stored) none (stored, true)

def addTeamMember (actor org team login : String) : Method Team :=
  audited actor "team.member.add" s!"team:{org}/{team}"
    (.locked (addTeamMemberLocked actor org team login))

/-- Agent tokens the member issued for the bots this team stewards are revoked with the
    membership. -/
def removeTeamMemberLocked (actor org team login : String) (now : DateTime) (core : ForgeCore) :
    Outcome (Team × Bool) :=
  match core.state.managedOrganization actor org with
  | .error error => .refuse error
  | .ok _ =>
    match core.state.auth.teams.lookup (org, team) with
    | none => .refuse (.notFound s!"team {org}/{team}")
    | some stored =>
      if !stored.members.contains login then .unchanged (stored, false)
      else
        let stored := { stored with members := stored.members.filter (· != login) }
        let state := ((core.state.withTeam org team stored).revokeStewardTokens org team login now).2
        .commit [] 0 state none (stored, true)

def removeTeamMember (actor org team login : String) : Method Team := do
  let now ← utcNow
  audited actor "team.member.remove" s!"team:{org}/{team}"
    (.locked (removeTeamMemberLocked actor org team login now))

end Jeryu.Core
