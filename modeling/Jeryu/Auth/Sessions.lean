import Jeryu.Auth.Passwords

namespace Jeryu.Core

open KeyedMap Text

structure SessionReceipt where
  session : WebSession
  token : Secret

structure PersonalAccessTokenReceipt where
  token : PersonalAccessToken
  secret : Secret

/-- `DateTime::<Utc>::MAX_UTC`. -/
def DateTime.last : DateTime := 8210266876799999999999

/-- The session a call makes of the account it read. -/
def storeSessionLocked (account : AccountSummary) (login : String) (createdAt expiresAt : DateTime)
    (core : ForgeCore) : Outcome SessionReceipt :=
  let token := core.uuids
  let session : WebSession :=
    { id := core.uuids + 1, login, authEpoch := account.authEpoch, tokenHash := tokenHash token
      csrfToken := core.uuids + 2, createdAt, expiresAt }
  let sessions := core.state.auth.sessions.insert session.tokenHash session
  .commit [] 3 { core.state with auth := { core.state.auth with sessions } } none ⟨session, token⟩

/-- `random` is what the random source answers. -/
def createSessionWithTtl (login : String) (ttl : Int) (random : Except ForgeError Unit) :
    Method SessionReceipt := do
  if ttl ≤ 0 then throw (.error (.validation "session ttl must be positive"))
  let account ← requireActiveAccount login
  .ofExcept random
  let createdAt ← utcNow
  if DateTime.last < createdAt + ttl then
    throw (.error (.validation "session ttl is out of range"))
  .locked (storeSessionLocked account login createdAt (createdAt + ttl))

def createSession (login : String) (random : Except ForgeError Unit) : Method SessionReceipt :=
  createSessionWithTtl login (14 * day) random

namespace State

def sessionForToken (state : State) (now : DateTime) (token : Secret) :
    Option (AccountSummary × WebSession) :=
  match state.auth.sessions.lookup (tokenHash token) with
  | none => none
  | some session =>
    if session.expiresAt ≤ now then none
    else match state.accounts.lookup session.login with
      | none => none
      | some account =>
        if !account.status.permitsAuthentication || account.authEpoch != session.authEpoch then none
        else some (account.summary, session)

def personalTokenAccount (state : State) (now : DateTime) (token : Secret) :
    Option AccountSummary :=
  match state.auth.personalTokens.values.find? fun record =>
      record.tokenHash = tokenHash token && record.expiresAt.all fun expires => expires > now with
  | none => none
  | some record =>
    match state.accounts.lookup record.login with
    | none => none
    | some account =>
      if !account.status.permitsAuthentication || account.authEpoch != record.authEpoch then none
      else some account.summary

end State

def sessionForToken (token : Secret) : Method (Option (AccountSummary × WebSession)) :=
  .reading fun core => .ok (core.state.sessionForToken core.now token)

def revokeSessionLocked (token : Secret) (core : ForgeCore) : Outcome Unit :=
  let sessions := core.state.auth.sessions.erase (tokenHash token)
  .commit [] 0 { core.state with auth := { core.state.auth with sessions } } none ()

def revokeSession (token : Secret) : Method Unit := .locked (revokeSessionLocked token)

def validatePatExpiry (expiresAt : Option DateTime) (now : DateTime) :
    Except ForgeError (Option DateTime) :=
  let expiresAt := expiresAt.getD (now + 90 * day)
  if expiresAt ≤ now then .error (.validation "token expiry must be in the future")
  else if expiresAt > now + 365 * day then
    .error (.validation "token expiry may not exceed 365 days")
  else .ok (some expiresAt)

/-- The token a call makes of the account it read. -/
def storePersonalTokenLocked (account : AccountSummary) (login name : String)
    (createdAt : DateTime) (expiresAt : Option DateTime) (core : ForgeCore) :
    Outcome PersonalAccessTokenReceipt :=
  let secret := core.uuids
  let token : PersonalAccessToken :=
    { id := core.uuids + 1, login, authEpoch := account.authEpoch, name := trim name
      tokenHash := tokenHash secret, createdAt, expiresAt }
  let personalTokens := core.state.auth.personalTokens.insert token.id token
  .commit [] 2 { core.state with auth := { core.state.auth with personalTokens } } none ⟨token, secret⟩

def createPersonalAccessToken (login name : String) (expiresAt : Option DateTime)
    (random : Except ForgeError Unit) : Method PersonalAccessTokenReceipt := do
  let account ← requireActiveAccount login
  .ofExcept (requireName "token name" name)
  let now ← utcNow
  let expiresAt ← .ofExcept (validatePatExpiry expiresAt now)
  .ofExcept random
  .locked (storePersonalTokenLocked account login name now expiresAt)

def revokePersonalTokenLocked (login : String) (id : Uuid) (core : ForgeCore) : Outcome Bool :=
  let removed := (core.state.auth.personalTokens.lookup id).any fun token => token.login = login
  let personalTokens := if removed then core.state.auth.personalTokens.erase id
    else core.state.auth.personalTokens
  .commit [] 0 { core.state with auth := { core.state.auth with personalTokens } } none removed

def revokePersonalAccessToken (login : String) (id : Uuid) : Method Bool := do
  let _ ← getAccount login
  .locked (revokePersonalTokenLocked login id)

def authenticatePersonalAccessToken (token : Secret) : Method (Option AccountSummary) :=
  .reading fun core => .ok (core.state.personalTokenAccount core.now token)

end Jeryu.Core
