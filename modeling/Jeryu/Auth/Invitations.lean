import Jeryu.Auth.Credentials
import Jeryu.Auth.Organizations

namespace Jeryu.Core

open KeyedMap Text

structure AccountInvitationReceipt where
  invitation : AccountInvitation
  activationSecret : Secret

structure ActivationStartReceipt where
  challenge : Secret
  expiresAt : DateTime

def activationMaxAttempts : Nat := 5

def activationError : Failure := .error (.validation "activation could not be completed")

def splitTeamBinding (binding : String) : Except ForgeError (String × String) :=
  let refused : ForgeError := .validation "team binding must be canonical organization/team"
  match splitOnce binding '/' with
  | none => .error refused
  | some (organization, team) =>
    if organization = "" || team = "" || team.toList.contains '/' then .error refused
    else .ok (organization, team)

def normalizeTeamBinding (binding : String) : Except ForgeError String := do
  let (organization, team) ← splitTeamBinding (trim binding)
  requireLogin organization
  requireLogin team
  return organization ++ "/" ++ team

def normalizeTeamBindings (bindings : List String) : Except ForgeError (List String) := do
  let normalized ← bindings.mapM normalizeTeamBinding
  return sorted normalized.dedup

def AccountInvitation.isOpen (invitation : AccountInvitation) : Bool :=
  invitation.consumedAt.isNone && invitation.revokedAt.isNone

namespace State

def withInvitations (state : State)
    (f : HashMap Uuid AccountInvitation → HashMap Uuid AccountInvitation) : State :=
  { state with auth := { state.auth with invitations := f state.auth.invitations } }

def withChallenges (state : State)
    (f : HashMap Digest ActivationChallenge → HashMap Digest ActivationChallenge) : State :=
  { state with auth := { state.auth with
      activationChallenges := f state.auth.activationChallenges } }

/-- The first binding of a team that does not exist, or what is wrong with it. -/
def missingTeam (state : State) : List String → Except ForgeError (Option String)
  | [] => .ok none
  | binding :: rest => do
    let (organization, team) ← splitTeamBinding binding
    if (state.auth.teams.lookup (organization, team)).isNone then return some binding
    state.missingTeam rest

def hasAdmin (state : State) : Bool :=
  state.accounts.values.any fun account => account.role = .admin

/-- `login` joins the teams its invitation bound. -/
def joinTeams (state : State) (login : String) : List String → State
  | [] => state
  | binding :: rest =>
    match splitTeamBinding binding with
    | .error _ => state.joinTeams login rest
    | .ok key =>
      match state.auth.teams.lookup key with
      | none => state.joinTeams login rest
      | some team =>
        if team.members.contains login then state.joinTeams login rest
        else (state.withTeam key.1 key.2
          { team with members := sorted (team.members ++ [login]) }).joinTeams login rest

end State

def createAccountInvitationLocked (issuerPrincipal canonicalLogin displayName : String)
    (intendedBindings : InvitationBindings) (now expiresAt : DateTime) (bootstrapOwner : Bool)
    (core : ForgeCore) : Outcome AccountInvitationReceipt :=
  let state := core.state
  let expired (invitation : AccountInvitation) : Bool :=
    invitation.isOpen && invitation.expiresAt ≤ now
  let active (picks : AccountInvitation → Bool) : Bool :=
    state.auth.invitations.values.any fun invitation =>
      picks invitation && invitation.isOpen && !expired invitation
  if (state.accounts.lookup canonicalLogin).isSome ||
      (state.organizations.lookup canonicalLogin).isSome then
    .refuse (.conflict s!"account {canonicalLogin}")
  else if bootstrapOwner && (state.auth.bootstrapOwnerConsumed || state.hasAdmin) then
    .refuse (.conflict "owner bootstrap has already been consumed")
  else match state.missingTeam intendedBindings.teams with
    | .error error => .refuse error
    | .ok (some binding) => .refuse (.notFound s!"team {binding}")
    | .ok none =>
      if active fun invitation => invitation.canonicalLogin = canonicalLogin then
        .refuse (.conflict s!"active invitation for {canonicalLogin}")
      else if bootstrapOwner && active AccountInvitation.bootstrapOwner then
        .refuse (.conflict "active owner bootstrap invitation")
      else
        let activationSecret := core.uuids
        let invitation : AccountInvitation :=
          { id := core.uuids + 1, canonicalLogin, displayName := trim displayName
            activationSecretHash := tokenHash activationSecret
            issuerPrincipal := trim issuerPrincipal, intendedBindings, createdAt := now, expiresAt
            consumedAt := none, revokedAt := none, attemptCount := 0, bootstrapOwner }
        let next := state.withInvitations fun rows =>
          (rows.mapValues fun _ row => if expired row then { row with revokedAt := some now } else row).insert
            invitation.id invitation
        .commit [] 2 next none ⟨invitation, activationSecret⟩

/-- `random` is what the random source answers. -/
def createAccountInvitationInner (issuerPrincipal canonicalLogin displayName : String)
    (intendedBindings : InvitationBindings) (expiresAt : DateTime) (bootstrapOwner : Bool)
    (random : Except ForgeError Unit) : Method AccountInvitationReceipt := do
  .ofExcept (requireLogin canonicalLogin)
  .ofExcept (requireName "display name" displayName)
  .ofExcept (requireName "issuer principal" issuerPrincipal)
  let teams ← .ofExcept (normalizeTeamBindings intendedBindings.teams)
  let now ← utcNow
  if expiresAt ≤ now then
    throw (.error (.validation "invitation expiry must be in the future"))
  if expiresAt > now + 24 * hour then
    throw (.error (.validation "invitation expiry may not exceed 24 hours"))
  .ofExcept random
  .locked (createAccountInvitationLocked issuerPrincipal canonicalLogin displayName
    { intendedBindings with teams } now expiresAt bootstrapOwner)

def createAccountInvitation (issuerPrincipal canonicalLogin displayName : String)
    (intendedBindings : InvitationBindings) (expiresAt : DateTime)
    (random : Except ForgeError Unit) : Method AccountInvitationReceipt :=
  createAccountInvitationInner issuerPrincipal canonicalLogin displayName intendedBindings expiresAt
    false random

/-- The only permitted first-owner bootstrap invitation. -/
def createBootstrapOwnerInvitation (canonicalLogin displayName : String) (expiresAt : DateTime)
    (random : Except ForgeError Unit) : Method AccountInvitationReceipt :=
  createAccountInvitationInner "local-operator" canonicalLogin displayName ⟨.admin, []⟩ expiresAt true
    random

def revokeAccountInvitationLocked (id : Uuid) (core : ForgeCore) : Outcome Bool :=
  match (core.state.auth.invitations.lookup id).filter AccountInvitation.isOpen with
  | some invitation =>
    .commit [] 0 (core.state.withInvitations fun rows =>
      rows.insert id { invitation with revokedAt := some core.now }) none true
  | none => .commit [] 0 core.state none false

def revokeAccountInvitation (id : Uuid) : Method Bool := .locked (revokeAccountInvitationLocked id)

def startAccountActivationLocked (canonicalLogin : String) (activationSecret : Secret)
    (now : DateTime) (core : ForgeCore) : Outcome (Except Failure ActivationStartReceipt) :=
  match core.state.auth.invitations.values.find? fun invitation =>
      invitation.canonicalLogin = canonicalLogin && invitation.isOpen && invitation.expiresAt > now with
  | none => .unchanged (.error activationError)
  | some invitation =>
    if invitation.attemptCount ≥ activationMaxAttempts then .unchanged (.error activationError)
    else
      let counted := core.state.withInvitations fun rows =>
        rows.insert invitation.id { invitation with attemptCount := invitation.attemptCount + 1 }
      if tokenHash activationSecret ≠ invitation.activationSecretHash then
        .commit [] 0 counted none (.error activationError)
      else
        let challenge := core.uuids
        let record : ActivationChallenge :=
          { id := core.uuids + 1, invitationId := invitation.id
            challengeHash := tokenHash challenge, createdAt := now, expiresAt := now + 10 * minute
            consumedAt := none }
        .commit [] 2 (counted.withChallenges fun rows => rows.insert record.challengeHash record) none
          (.ok ⟨challenge, record.expiresAt⟩)

def startAccountActivation (canonicalLogin : String) (activationSecret : Secret)
    (random : Except ForgeError Unit) : Method ActivationStartReceipt := do
  if (requireLogin canonicalLogin).isOk = false then throw activationError
  .ofExcept random
  let now ← utcNow
  .settled (startAccountActivationLocked canonicalLogin activationSecret now)

/-- The account an invitation asks for, in every table it appears in. -/
def State.activated (state : State) (challenge : Digest) (record : ActivationChallenge)
    (invitation : AccountInvitation) (account : UserAccount) (user : User) (now : DateTime) : State :=
  let state := state.withChallenges fun rows =>
    rows.insert challenge { record with consumedAt := some now }
  let state := state.withInvitations fun rows =>
    rows.insert invitation.id { invitation with consumedAt := some now }
  let users := if (state.users.lookup account.canonicalLogin).isSome then state.users
    else state.users.insert account.canonicalLogin user
  let state := { state with users }.joinTeams account.canonicalLogin invitation.intendedBindings.teams
  let auth := { state.auth with
    bootstrapOwnerConsumed := state.auth.bootstrapOwnerConsumed || invitation.bootstrapOwner }
  { state with auth, accounts := state.accounts.insert account.canonicalLogin account }

def completeAccountActivationLocked (challenge : Digest) (passwordHash : String) (now : DateTime)
    (core : ForgeCore) : Outcome (Except Failure AccountSummary) :=
  match (core.state.auth.activationChallenges.lookup challenge).filter fun record =>
      record.consumedAt.isNone && record.expiresAt > now with
  | none => .unchanged (.error activationError)
  | some record =>
    match (core.state.auth.invitations.lookup record.invitationId).filter fun invitation =>
        invitation.isOpen && invitation.expiresAt > now &&
          invitation.attemptCount ≤ activationMaxAttempts with
    | none => .unchanged (.error activationError)
    | some invitation =>
      if (core.state.accounts.lookup invitation.canonicalLogin).isSome then
        .unchanged (.error activationError)
      else match core.state.missingTeam invitation.intendedBindings.teams with
        | .error error => .refuse error
        | .ok (some _) => .unchanged (.error activationError)
        | .ok none =>
          if invitation.bootstrapOwner && (core.state.auth.bootstrapOwnerConsumed || core.state.hasAdmin) then
            .unchanged (.error activationError)
          else
            let account : UserAccount :=
              { canonicalLogin := invitation.canonicalLogin, displayName := invitation.displayName
                passwordHash, role := invitation.intendedBindings.role, status := .pendingMfa
                authEpoch := 0, mustChangePassword := false, createdAt := now, updatedAt := now }
            let user : User :=
              { id := core.uuids, login := account.canonicalLogin, name := some account.displayName
                email := none, createdAt := now }
            .commit [] 1 (core.state.activated challenge record invitation account user now) none
              (.ok account.summary)

/-- Exactly once, leaving the new account MFA-pending. -/
def completeAccountActivation (challenge : Secret) (password : String)
    (salt : Except ForgeError String) : Method AccountSummary := do
  .ofExcept (requirePassword password)
  let passwordHash ← .ofExcept (hashPassword salt password)
  let now ← utcNow
  .settled (completeAccountActivationLocked (tokenHash challenge) passwordHash now)

end Jeryu.Core
