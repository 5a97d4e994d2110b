import Jeryu.Vault.Seals
import Jeryu.Core.Accounts

/-!
Connect-once provider connections. Sessions bind a connection's id and generation; the secret is
unsealed for the live generation only.
-/

namespace Jeryu.Vault

open KeyedMap Text Aead

open Jeryu.Core (ForgeError ForgeCore DateTime)

inductive AgentProvider where
  | claude
  | codex
  | grok
  deriving DecidableEq

def AgentProvider.asStr : AgentProvider → String
  | claude => "claude"
  | codex => "codex"
  | grok => "grok"

inductive CredentialKind where
  | oauthRefresh
  | apiKey
  deriving DecidableEq

def CredentialKind.asStr : CredentialKind → String
  | oauthRefresh => "oauth_refresh"
  | apiKey => "api_key"

inductive ConnectionState where
  | pending
  | connected
  | authRequired
  | disconnected
  deriving DecidableEq

structure ProviderConnection where
  id : String
  /-- `user/<login>` or `service/<name>`. -/
  ownerId : String
  provider : AgentProvider
  providerAccount : String
  credentialKind : CredentialKind
  state : ConnectionState
  /-- Bumped on connect, reconnect and disconnect. -/
  connectionGeneration : UInt64
  /-- Refresh rotations within the current generation. -/
  secretVersion : UInt64
  createdAt : DateTime
  updatedAt : DateTime
  refreshedAt : Option DateTime
  deriving DecidableEq

structure ConnectionBinding where
  provider : AgentProvider
  connectionId : String
  connectionGeneration : UInt64
  deriving DecidableEq

inductive TokenExchange (α : Type) where
  | rotated (secret : List UInt8) (access : α)
  | unchanged (reason : String)
  | revoked (reason : String)
  | unknown (reason : String)

structure Rotation where
  secretVersion : UInt64
  startedAt : DateTime

structure ConnectionRecord where
  connection : ProviderConnection
  sealed : Option SealedSecret
  rotation : Option Rotation

abbrev Connections := HashMap String ConnectionRecord

/-- The core with its vault. `storedConnections` are the rows the last committed snapshot left. -/
structure VaultCore where
  core : ForgeCore
  providerConnections : Connections
  storedConnections : Connections
  serviceNamespaces : List String
  vault : Option VaultKey

def unregisteredService (name : String) : ForgeError :=
  .validation s!"connection_owner_invalid: service/{name} is not a registered service namespace"

def authRequired (provider : AgentProvider) : ForgeError :=
  .conflict (s!"provider_auth_required: sign in to {provider.asStr} again in Settings; " ++
    "the stored credential may no longer be valid")

def staleGeneration : ForgeError :=
  .conflict "connection_generation_stale: the session is bound to an older connection generation"

def notConnected (provider : AgentProvider) : ForgeError :=
  .notFound s!"provider_not_connected: connect {provider.asStr} once in Settings, then retry"

def ownerMismatch : ForgeError :=
  .forbidden "connection_owner_mismatch: the connection belongs to another owner"

def isNameChar (c : Char) : Bool := isAsciiAlphanumeric c || "._:-".toList.contains c

/-- `user/` or `service/`, then a name that starts and ends alphanumeric. -/
def validOwnerId (ownerId : String) : Bool :=
  match (stripPrefix ownerId "user/").or (stripPrefix ownerId "service/") with
  | none => false
  | some name =>
    6 ≤ len ownerId && len ownerId ≤ 128 && name.toList.head?.any isAsciiAlphanumeric &&
      name.toList.getLast?.any isAsciiAlphanumeric && name.toList.all isNameChar && !contains name ".."

def validContractId (value : String) : Bool :=
  value ≠ "" && len value ≤ 128 && value.toList.head?.any isAsciiAlphanumeric &&
    value.toList.getLast?.any isAsciiAlphanumeric &&
    (value.toList.all fun c => isAsciiAlphanumeric c || "._:/-".toList.contains c) &&
    !contains value ".." && !contains value "//"

def sealBinding (connection : ProviderConnection) : SealBinding where
  connectionId := connection.id
  ownerId := connection.ownerId
  provider := connection.provider.asStr
  generation := connection.connectionGeneration
  secretVersion := connection.secretVersion
  credentialKind := connection.credentialKind.asStr

def maxSecretBytes : Nat := 16 * 1024

namespace VaultCore

variable (cipher : Cipher)

def vaultKey (vault : VaultCore) : Except ForgeError VaultKey :=
  match vault.vault with
  | some key => .ok key
  | none => .error (.validation "vault_unavailable: this server has no vault key configured")

def requireOwner (vault : VaultCore) (ownerId : String) : Except ForgeError Unit :=
  let invalid : ForgeError :=
    .validation "connection_owner_invalid: owner must be user/<login> or service/<name>"
  if !validOwnerId ownerId then .error invalid
  else match stripPrefix ownerId "user/" with
    | some login =>
      match vault.core.state.accounts.lookup login with
      | some account => if account.status.permitsAuthentication then .ok () else .error invalid
      | none => .error invalid
    | none =>
      match stripPrefix ownerId "service/" with
      | some name =>
        if vault.serviceNamespaces.contains name then .ok () else .error (unregisteredService name)
      | none => .ok ()

def ownerActive (vault : VaultCore) (ownerId : String) : Bool :=
  match stripPrefix ownerId "user/" with
  | some login => (vault.core.state.accounts.lookup login).any (·.status.permitsAuthentication)
  | none => true

/-- The record behind a binding, if it is still the live, connected generation. -/
def liveRecord (vault : VaultCore) (ownerId : String) (binding : ConnectionBinding) :
    Except ForgeError ConnectionRecord :=
  match vault.providerConnections.lookup binding.connectionId with
  | none => .error (notConnected binding.provider)
  | some record =>
    let connection := record.connection
    if connection.ownerId ≠ ownerId ∨ connection.provider ≠ binding.provider then .error ownerMismatch
    else match (stripPrefix ownerId "service/").filter fun name => !vault.serviceNamespaces.contains name with
      | some name => .error (unregisteredService name)
      | none =>
        if !vault.ownerActive ownerId || connection.state = .pending || connection.state = .disconnected then
          .error (notConnected binding.provider)
        else if connection.state = .authRequired then .error (authRequired binding.provider)
        else if connection.connectionGeneration ≠ binding.connectionGeneration then .error staleGeneration
        else .ok record

def checkProviderBinding (vault : VaultCore) (ownerId : String) (binding : ConnectionBinding) :
    Except ForgeError ProviderConnection :=
  (vault.liveRecord ownerId binding).map ConnectionRecord.connection

/-- `connection_id` picks one connection; without it the owner must hold exactly one connected
    connection for `provider`. -/
def pickConnection (vault : VaultCore) (ownerId : String) (provider : AgentProvider)
    (connectionId : Option String) : Except ForgeError ProviderConnection :=
  match connectionId with
  | some id =>
    match vault.providerConnections.lookup id with
    | none => .error (notConnected provider)
    | some record =>
      if record.connection.ownerId ≠ ownerId ∨ record.connection.provider ≠ provider then .error ownerMismatch
      else .ok record.connection
  | none =>
    let mine := vault.providerConnections.values.filter fun record =>
      record.connection.ownerId = ownerId && record.connection.provider = provider
    match mine.filter fun record => record.connection.state = .connected with
    | [] =>
      if mine.any fun record => record.connection.state = .authRequired then .error (authRequired provider)
      else .error (notConnected provider)
    | [first] => .ok first.connection
    | _ :: _ :: _ => .error (.conflict "provider_connection_ambiguous: name the connection_id to use")

def resolveProviderBinding (vault : VaultCore) (ownerId : String) (provider : AgentProvider)
    (connectionId : Option String) : Except ForgeError ConnectionBinding :=
  match (stripPrefix ownerId "service/").filter fun name => !vault.serviceNamespaces.contains name with
  | some name => .error (unregisteredService name)
  | none =>
    match vault.pickConnection ownerId provider connectionId with
    | .error error => .error error
    | .ok connection =>
      match connection.state with
      | .connected =>
        .ok { provider, connectionId := connection.id, connectionGeneration := connection.connectionGeneration }
      | .authRequired => .error (authRequired provider)
      | .pending | .disconnected => .error (notConnected provider)

def unsealProviderSecret (vault : VaultCore) (ownerId : String) (binding : ConnectionBinding) :
    Except ForgeError (List UInt8) := do
  let key ← vault.vaultKey
  let record ← vault.liveRecord ownerId binding
  match record.sealed with
  | none => throw (notConnected binding.provider)
  | some sealed => key.openSecret cipher (sealBinding record.connection) sealed

end VaultCore

/-- What SQLite does with the snapshot of a section; an error may also come after the commit. -/
inductive Stored where
  | committed
  | refused (error : ForgeError)
  | late (error : ForgeError)

/-- What storage does in the section that ends a refresh, and then to the fence it may leave. -/
structure RefreshStored where
  mutation : Stored
  fence : Stored

namespace VaultCore

def persist (stored : Stored) (vault : VaultCore) : Except ForgeError Unit × VaultCore :=
  if vault.core.storage.isNone then (.ok (), vault)
  else match stored with
    | .committed => (.ok (), { vault with storedConnections := vault.providerConnections })
    | .refused error => (.error error, vault)
    | .late error => (.error error, { vault with storedConnections := vault.providerConnections })

/-- An error restores the previous state. -/
def persistAfterMutation (previous : Connections) (stored : Stored) (vault : VaultCore) :
    Except ForgeError Unit × VaultCore :=
  match vault.persist stored with
  | (.ok (), kept) => (.ok (), kept)
  | (.error error, kept) => (.error error, { kept with providerConnections := previous })

/-- Persist a fence as far as storage allows: it is not rolled back when the write fails. -/
def persistFence (stored : Stored) (vault : VaultCore) : VaultCore := (vault.persist stored).2

def withRecord (id : String) (record : ConnectionRecord) (vault : VaultCore) : VaultCore :=
  { vault with providerConnections := vault.providerConnections.insert id record }

/-- A mutation of one connection, and what it answers if it is stored. -/
def putRecord {α : Type} (id : String) (record : ConnectionRecord) (answer : Except ForgeError α)
    (stored : Stored) (vault : VaultCore) : Except ForgeError α × VaultCore :=
  match (vault.withRecord id record).persistAfterMutation vault.providerConnections stored with
  | (.ok (), kept) => (answer, kept)
  | (.error error, kept) => (.error error, kept)

end VaultCore

/-- What a connect draws: the identifier of a new connection, and what its seal takes. -/
structure ConnectDraws where
  uuid : Vector UInt8 16
  draws : SealDraws

def connectionId (uuid : Vector UInt8 16) : String := "pc_" ++ hexEncode uuid.toList

/-- `auth_required`: the stored secret is in doubt, so it is dropped. -/
def fenceAuthRequired (now : DateTime) (record : ConnectionRecord) : ConnectionRecord :=
  { connection := { record.connection with state := .authRequired, updatedAt := now }
    sealed := none
    rotation := none }

/-- Every connection a rotation was in flight for when the store was last written. -/
def fenceUnfinishedRotations (now : DateTime) (connections : Connections) : Connections :=
  connections.mapValues fun _ record =>
    if record.rotation.isSome then fenceAuthRequired now record else record

namespace VaultCore

variable (cipher : Cipher)

/-- What is checked before the write lock. -/
def admitConnect (vault : VaultCore) (ownerId providerAccount : String) (secret : List UInt8) :
    Except ForgeError (VaultKey × String) := do
  let key ← vault.vaultKey
  vault.requireOwner ownerId
  let account := trim providerAccount
  if !validContractId account then
    throw (.validation ("provider_account_invalid: use 1 to 128 characters of letters, digits, and ._:/- " ++
      "starting and ending with a letter or digit"))
  if secret.isEmpty || secret.length > maxSecretBytes then
    throw (.validation "provider_secret_invalid: the credential must be 1 byte to 16 KiB")
  return (key, account)

def connectProviderLocked (key : VaultKey) (ownerId : String) (provider : AgentProvider) (account : String)
    (credentialKind : CredentialKind) (secret : List UInt8) (admits : Bool) (drawn : ConnectDraws)
    (stored : Stored) (vault : VaultCore) : Except ForgeError ProviderConnection × VaultCore :=
  if !admits then
    (.error (.conflict ("provider_connect_refused: the caller's authority to connect ran out before the " ++
      "vault took it; nothing changed")), vault)
  else
    let now := vault.core.now
    let existing := vault.providerConnections.values.find? fun record =>
      record.connection.ownerId = ownerId && record.connection.provider = provider &&
        record.connection.providerAccount = account
    let connection : ProviderConnection := match existing with
      | some record => { record.connection with
          credentialKind, state := .connected
          connectionGeneration := record.connection.connectionGeneration + 1
          secretVersion := 0, updatedAt := now, refreshedAt := none }
      | none =>
        { id := connectionId drawn.uuid, ownerId, provider, providerAccount := account, credentialKind
          state := .connected, connectionGeneration := 1, secretVersion := 0, createdAt := now
          updatedAt := now, refreshedAt := none }
    match key.sealSecret cipher (sealBinding connection) secret drawn.draws with
    | .error error => (.error error, vault)
    | .ok sealed =>
      vault.putRecord connection.id { connection, sealed := some sealed, rotation := none } (.ok connection) stored

def disconnectProviderLocked (ownerId connectionId : String) (stored : Stored) (vault : VaultCore) :
    Except ForgeError ProviderConnection × VaultCore :=
  match vault.providerConnections.lookup connectionId with
  | none => (.error (.notFound "provider_not_connected: no such provider connection"), vault)
  | some record =>
    if record.connection.ownerId ≠ ownerId then (.error ownerMismatch, vault)
    else if record.connection.state = .disconnected then (.ok record.connection, vault)
    else
      let connection := { record.connection with
        state := .disconnected, connectionGeneration := record.connection.connectionGeneration + 1
        updatedAt := vault.core.now }
      vault.putRecord connectionId { connection, sealed := none, rotation := none } (.ok connection) stored

/-- Re-read the row, fence a rotation an earlier refresh never finished, and record this one before
    the provider sees the stored secret. -/
def refreshBegin (key : VaultKey) (ownerId : String) (binding : ConnectionBinding) (stored : Stored)
    (vault : VaultCore) : Except ForgeError (List UInt8 × UInt64) × VaultCore :=
  match vault.liveRecord ownerId binding with
  | .error error => (.error error, vault)
  | .ok record =>
    if record.rotation.isSome then
      vault.putRecord binding.connectionId (fenceAuthRequired vault.core.now record)
        (.error (authRequired binding.provider)) stored
    else match record.sealed with
      | none => (.error (notConnected binding.provider), vault)
      | some sealed =>
        match key.openSecret cipher (sealBinding record.connection) sealed with
        | .error error => (.error error, vault)
        | .ok opened =>
          let version := record.connection.secretVersion
          let marked := { record with rotation := some { secretVersion := version, startedAt := vault.core.now } }
          match vault.putRecord binding.connectionId marked (.ok (opened, version)) stored with
          | (.ok answer, kept) => (.ok answer, kept)
          | (.error _, kept) =>
            (.error (.storage ("refresh_persist_failed: the rotation could not be recorded; nothing " ++
              "reached the provider and the stored credential stays current")), kept)

/-- Compare the row with what the refresh began with, then commit. -/
def refreshEnd {α : Type} (key : VaultKey) (ownerId : String) (binding : ConnectionBinding) (version : UInt64)
    (outcome : TokenExchange α) (draws : SealDraws) (stored : RefreshStored) (vault : VaultCore) :
    Except ForgeError (ProviderConnection × α) × VaultCore :=
  match (vault.providerConnections.lookup binding.connectionId).filter fun record =>
      record.connection.state = .connected &&
        record.connection.connectionGeneration = binding.connectionGeneration &&
        record.connection.secretVersion = version &&
        record.rotation.any (·.secretVersion = version) with
  | none =>
    match vault.liveRecord ownerId binding with
    | .error error => (.error error, vault)
    | .ok _ => (.error staleGeneration, vault)
  | some record =>
    let fenced := vault.withRecord binding.connectionId (fenceAuthRequired vault.core.now record)
    match outcome with
    | .unchanged reason =>
      let cleared := vault.withRecord binding.connectionId { record with rotation := none }
      (.error (.conflict (s!"provider_refresh_failed: the provider did not rotate the credential ({trim reason}" ++
        "); the stored one stays current")),
        (cleared.persistAfterMutation vault.providerConnections stored.mutation).2)
    | .revoked reason | .unknown reason =>
      (.error (.conflict (s!"provider_auth_required: sign in to {binding.provider.asStr} again; " ++
        s!"the stored credential may no longer be valid ({trim reason})")), fenced.persistFence stored.fence)
    | .rotated secret access =>
      let next := { record.connection with secretVersion := record.connection.secretVersion + 1 }
      let resealed := if secret.isEmpty || secret.length > maxSecretBytes then none
        else (key.sealSecret cipher (sealBinding next) secret draws).toOption
      match resealed with
      | none =>
        (.error (.conflict (s!"provider_auth_required: sign in to {binding.provider.asStr} again; " ++
          "the rotated credential could not be stored")), fenced.persistFence stored.fence)
      | some sealed =>
        let connection := { record.connection with
          secretVersion := version + 1, refreshedAt := some vault.core.now, updatedAt := vault.core.now }
        match vault.putRecord binding.connectionId { connection, sealed := some sealed, rotation := none }
            (.ok (connection, access)) stored.mutation with
        | (.ok answer, kept) => (.ok answer, kept)
        | (.error _, kept) =>
          (.error (.storage ("refresh_persist_failed: the rotated credential could not be saved; the " ++
            "connection is auth_required until it is connected again")),
            (kept.withRecord binding.connectionId (fenceAuthRequired vault.core.now record)).persistFence stored.fence)

def registerServiceNamespaceLocked (name : String) (vault : VaultCore) : Except ForgeError Unit × VaultCore :=
  if !validOwnerId s!"service/{name}" then
    (.error (.validation s!"connection_owner_invalid: service/{name} is not a valid service account name"), vault)
  else (.ok (), { vault with serviceNamespaces := vault.serviceNamespaces.insert name })

def revokeServiceNamespaceLocked (name : String) (vault : VaultCore) : Bool × VaultCore :=
  (vault.serviceNamespaces.contains name,
    { vault with serviceNamespaces := vault.serviceNamespaces.filter (· ≠ name) })

end VaultCore

end Jeryu.Vault
