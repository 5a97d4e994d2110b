import Jeryu.Auth.Credentials

namespace Jeryu.Core

open KeyedMap Text

def requireActiveAccount (login : String) : Method AccountSummary := do
  let account ← getAccount login
  if !account.status.permitsAuthentication then
    throw (.error (.validation "account is not active"))
  return account

def authenticatePassword (login password : String) : Method AccountSummary :=
  .reading fun core =>
    match core.state.accounts.lookup login with
    | none => .error (.validation "invalid login or password")
    | some account =>
      if !account.status.permitsAuthentication then
        .error (.validation "invalid login or password")
      else (verifyPassword password account.passwordHash).map fun _ => account.summary

/-- How a section that moves the epoch of `login` ends. The edits made before a refused epoch
    stay in memory. -/
def Outcome.moved (core : ForgeCore) (login : String) (edited : UserAccount) :
    Outcome (Except Failure AccountSummary) :=
  match core.state.epochMoved login edited core.now with
  | .error (error, spoiled) => .direct [] spoiled (.error (.error error))
  | .ok (updated, state) => .commit [] 0 state none (.ok updated.summary)

/-- `hash` is what `hash_password` answers. -/
def resetAccountPasswordLocked (login : String) (hash : Except ForgeError String) (core : ForgeCore) :
    Outcome (Except Failure AccountSummary) :=
  match core.state.accounts.lookup login with
  | none => .refuse (.notFound s!"account {login}")
  | some account =>
    match hash with
    | .error error => .refuse error
    | .ok passwordHash => .moved core login { account with passwordHash, mustChangePassword := true }

def resetAccountPassword (login newPassword : String) (salt : Except ForgeError String) :
    Method AccountSummary := do
  .ofExcept (requirePassword newPassword)
  .settled (resetAccountPasswordLocked login (hashPassword salt newPassword))

/-- The account the caller was shown is not looked at again. -/
def changeAccountPasswordLocked (login : String) (hash : Except ForgeError String) (core : ForgeCore) :
    Outcome (Except Failure AccountSummary) :=
  match core.state.accounts.lookup login with
  | none => .unchanged (.error (.panicked "account was read before write lock"))
  | some account =>
    match hash with
    | .error error => .refuse error
    | .ok passwordHash => .moved core login { account with passwordHash, mustChangePassword := false }

/-- What `change_account_password` asks of the account it reads. -/
def changeAccountPasswordCheck (login currentPassword : String) (core : ForgeCore) :
    Except ForgeError Unit :=
  match core.state.accounts.lookup login with
  | none => .error (.notFound s!"account {login}")
  | some account =>
    if !account.status.permitsAuthentication then .error (.validation "invalid login or password")
    else verifyPassword currentPassword account.passwordHash

def changeAccountPassword (login currentPassword newPassword : String)
    (salt : Except ForgeError String) : Method AccountSummary := do
  .ofExcept (requirePassword newPassword)
  .reading (changeAccountPasswordCheck login currentPassword)
  .settled (changeAccountPasswordLocked login (hashPassword salt newPassword))

def forcePasswordChangeLocked (login : String) (forced : Bool) (core : ForgeCore) :
    Outcome (Except Failure AccountSummary) :=
  match core.state.accounts.lookup login with
  | none => .refuse (.notFound s!"account {login}")
  | some account =>
    if forced then .moved core login { account with mustChangePassword := forced }
    else
      let updated := { account with mustChangePassword := forced, updatedAt := core.now }
      .commit [] 0 { core.state with accounts := core.state.accounts.insert login updated } none
        (.ok updated.summary)

def forcePasswordChange (login : String) (forced : Bool) : Method AccountSummary :=
  .settled (forcePasswordChangeLocked login forced)

def createTemporaryAccount (login password : String) (role : UserRole)
    (hash : Except ForgeError String) : Method AccountSummary := do
  let account ← createAccount login password role hash
  let _ ← forcePasswordChange login true
  ExceptT.mk ((getAccount login).run >>= fun
    | .ok stored => .done (.ok stored)
    | .error _ => .done (.ok account))

def transitionRefusal : AccountStatus → String
  | .pendingMfa => "only disabled or locked accounts may be reactivated"
  | .active => "account is not pending MFA enrollment"
  | _ => "account status transition is not allowed"

def transitionAccountStatusLocked (login : String) (status : AccountStatus)
    (allowedCurrent : Option (List AccountStatus)) (core : ForgeCore) :
    Outcome (Except Failure AccountSummary) :=
  match core.state.accounts.lookup login with
  | none => .refuse (.notFound s!"account {login}")
  | some account =>
    if allowedCurrent.any fun allowed => !allowed.contains account.status then
      .refuse (.validation (transitionRefusal status))
    else if account.status = status then .unchanged (.ok account.summary)
    else match core.state.epochMoved login { account with status } core.now with
      | .error (error, spoiled) => .direct [] spoiled (.error (.error error))
      | .ok (updated, state) =>
        -- A steward who can no longer sign in takes the team bot tokens they issued with them.
        let state := if status.permitsAuthentication then state
          else (state.revokeTokensIssuedBy login core.now).2
        .commit [] 0 state none (.ok updated.summary)

def transitionAccountStatus (login : String) (status : AccountStatus)
    (allowedCurrent : Option (List AccountStatus)) : Method AccountSummary :=
  .settled (transitionAccountStatusLocked login status allowedCurrent)

def disableAccount (login : String) : Method AccountSummary :=
  transitionAccountStatus login .disabled none

def lockAccount (login : String) : Method AccountSummary :=
  transitionAccountStatus login .locked none

def reactivateAccount (login : String) : Method AccountSummary :=
  transitionAccountStatus login .pendingMfa (some [.disabled, .locked])

def markAccountMfaActive (login : String) : Method AccountSummary :=
  transitionAccountStatus login .active (some [.pendingMfa])

end Jeryu.Core
