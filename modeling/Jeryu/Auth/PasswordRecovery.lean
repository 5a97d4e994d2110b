import Jeryu.Auth.Credentials

namespace Jeryu.Core

open KeyedMap Text

structure PasswordRecoveryIssued where
  login : String
  tokenId : Secret
  token : Secret
  expiresAt : DateTime

structure PasswordRecoveryReceipt where
  account : AccountSummary
  sessionsEnded : Nat
  personalAccessTokensRevoked : Nat

/-- A recovery secret as presented: the id it names and the whole text, `none` where the text
    has another shape. -/
abbrev PresentedRecovery := Option (Secret × Secret)

/-- One answer for every refusal. -/
def recoveryError : Failure := .error (.validation "password recovery could not be completed")

namespace State

def withRecoveries (state : State)
    (f : HashMap Secret PasswordRecoveryRecord → HashMap Secret PasswordRecoveryRecord) : State :=
  { state with auth := { state.auth with passwordRecoveries := f state.auth.passwordRecoveries } }

/-- Drop every spent, expired or exhausted secret. -/
def pruneDeadRecoveries (state : State) (now : DateTime) : State :=
  state.withRecoveries fun rows => rows.retain fun _ record => record.isLive now

/-- Spend every live secret of `login`. -/
def retireLiveSecrets (state : State) (login : String) (now : DateTime) : State :=
  state.withRecoveries fun rows => rows.mapValues fun _ record =>
    if record.login = login && record.consumedAt.isNone then { record with consumedAt := some now }
    else record

end State

/-- What a verified secret allows. -/
structure VerifiedSpend where
  login : String
  authEpoch : Nat
  deriving DecidableEq

inductive Refusal where
  /-- The id names a live secret, but the secret is wrong. -/
  | wrongSecret
  | refused

def State.verifySpend (state : State) (tokenId secret : Secret) (now : DateTime) :
    Except Refusal VerifiedSpend :=
  match (state.auth.passwordRecoveries.lookup tokenId).filter fun record => record.isLive now with
  | none => .error .refused
  | some record =>
    if tokenHash secret != record.secretHash then .error .wrongSecret
    else match state.accounts.lookup record.login with
      | none => .error .refused
      | some account =>
        if account.status.permitsAuthentication && account.authEpoch = record.authEpoch then
          .ok ⟨record.login, record.authEpoch⟩
        else .error .refused

def recoveryAudit (core : ForgeCore) (actor action login : String) (phase : AuditPhase) : AuditEntry :=
  { occurredAt := core.now, actor, action, subject := "account:" ++ login, phase
    detail := .other (.object []) }

def issueAction : String := "account.password_recovery.issue"

def recoveryAuditAction : String := "account.password_recovery.reset"

/-- An unknown login and an account that is not active cause the same durable work. -/
def issuePasswordRecoveryLocked (login : String) (now : DateTime) (core : ForgeCore) :
    Outcome (Except Failure PasswordRecoveryIssued) :=
  let pruned := core.state.pruneDeadRecoveries now
  match (core.state.accounts.lookup login).filter fun account => account.status.permitsAuthentication with
  | none =>
    let entry := recoveryAudit core "local" issueAction login .failed
    .commit [] 0 pruned (some entry) (.error recoveryError)
  | some account =>
    let token := core.uuids
    let tokenId := core.uuids + 1
    let record : PasswordRecoveryRecord :=
      { tokenId, login, secretHash := tokenHash token, authEpoch := account.authEpoch
        createdAt := now, expiresAt := now + 60 * minute, consumedAt := none, attemptCount := 0 }
    let state := (pruned.retireLiveSecrets login now).pruneDeadRecoveries now
    let entry := recoveryAudit core login issueAction login .completed
    .commit [] 2 (state.withRecoveries fun rows => rows.insert tokenId record) (some entry)
      (.ok ⟨login, tokenId, token, record.expiresAt⟩)

/-- `random` is what the random source answers. -/
def issuePasswordRecovery (login : String) (random : Except ForgeError Unit) :
    Method PasswordRecoveryIssued := do
  if (requireLogin login).isOk = false then throw recoveryError
  .ofExcept random
  let now ← utcNow
  .settled (issuePasswordRecoveryLocked login now)

/-- A storage failure here is swallowed into the uniform refusal. -/
def checkRecoveryLocked (tokenId secret : Secret) (core : ForgeCore) :
    Outcome (Option VerifiedSpend) :=
  match core.state.verifySpend tokenId secret core.now with
  | .ok checked => .unchanged (some checked)
  | .error .refused => .unchanged none
  | .error .wrongSecret =>
    match core.state.auth.passwordRecoveries.lookup tokenId with
    | none => .unchanged none
    | some record =>
      let counted := { record with attemptCount := record.attemptCount + 1 }
      let entry := recoveryAudit core "local" recoveryAuditAction record.login .failed
      .commit [] 0 (core.state.withRecoveries fun rows => rows.insert tokenId counted) (some entry) none

def recoverPasswordLocked (tokenId secret : Secret) (checked : VerifiedSpend) (passwordHash : String)
    (now : DateTime) (core : ForgeCore) : Outcome (Except Failure PasswordRecoveryReceipt) :=
  match core.state.verifySpend tokenId secret now with
  | .error _ => .unchanged (.error recoveryError)
  | .ok verified =>
    if verified != checked then .unchanged (.error recoveryError)
    else match core.state.accounts.lookup verified.login with
      | none => .unchanged (.error (.panicked "verify_spend found the account"))
      | some account =>
        let login := verified.login
        let retired := (core.state.retireLiveSecrets login now).pruneDeadRecoveries now
        match retired.epochMoved login { account with passwordHash, mustChangePassword := false } now with
        | .error (error, spoiled) => .direct [] spoiled (.error (.error error))
        | .ok (updated, state) =>
          let entry := recoveryAudit core login recoveryAuditAction login .completed
          .commit [] 0 state (some entry) (.ok
            { account := updated.summary
              sessionsEnded := (core.state.auth.sessions.values.filter (·.login = login)).length
              personalAccessTokensRevoked :=
                (core.state.auth.personalTokens.values.filter (·.login = login)).length })

def recoverPassword (presented : PresentedRecovery) (newPassword : String)
    (salt : Except ForgeError String) : Method PasswordRecoveryReceipt := do
  .ofExcept (requirePassword newPassword)
  match presented with
  | none => throw recoveryError
  | some (tokenId, secret) =>
    let checked ← ExceptT.mk ((Method.locked (checkRecoveryLocked tokenId secret)).run >>= fun
      | .ok (some checked) => .done (.ok checked)
      | .ok none | .error _ => .done (.error recoveryError))
    let passwordHash ← .ofExcept (hashPassword salt newPassword)
    let now ← utcNow
    .settled (recoverPasswordLocked tokenId secret checked passwordHash now)

end Jeryu.Core
