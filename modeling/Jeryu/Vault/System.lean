import Jeryu.Vault.Connections
import Jeryu.Library.Lives

/-!
The calls to the vault, any number of them under way, and the rows that come of them.
-/

namespace Jeryu.Vault

open KeyedMap HashMap LockProgram Aead

open Jeryu.Core (ForgeError ForgeCore DateTime)

/-- A call, with what its draws, the provider and the storage answer it. The access material of a
    refresh is bytes. -/
inductive VaultCall where
  | connectProvider (ownerId : String) (provider : AgentProvider) (providerAccount : String)
      (credentialKind : CredentialKind) (secret : List UInt8) (admits : Bool) (drawn : ConnectDraws)
      (stored : Stored)
  | disconnectProvider (ownerId connectionId : String) (stored : Stored)
  /-- `busy`: another refresh of the connection held its lock for too long. -/
  | refreshProviderSecret (ownerId : String) (binding : ConnectionBinding) (busy : Bool)
      (exchange : List UInt8 → TokenExchange (List UInt8)) (draws : SealDraws) (begins : Stored)
      (ends : RefreshStored)
  | unsealProviderSecret (ownerId : String) (binding : ConnectionBinding)
  | checkProviderBinding (ownerId : String) (binding : ConnectionBinding)
  | resolveProviderBinding (ownerId : String) (provider : AgentProvider) (connectionId : Option String)
  | registerServiceNamespace (name : String)
  | revokeServiceNamespace (name : String)

def VaultCall.Answer : VaultCall → Type
  | connectProvider .. | disconnectProvider .. | checkProviderBinding .. => ProviderConnection
  | refreshProviderSecret .. => ProviderConnection × List UInt8
  | unsealProviderSecret .. => List UInt8
  | resolveProviderBinding .. => ConnectionBinding
  | registerServiceNamespace .. => Unit
  | revokeServiceNamespace .. => Bool

abbrev VaultCall.Reply (call : VaultCall) : Type := Except ForgeError call.Answer

/-- A section under the write lock, and how the call goes on from what it answers. -/
def locked {α β : Type} (f : VaultCore → α × VaultCore) (next : α → Program VaultCore β) : Program VaultCore β :=
  .write (fun vault => (f vault).2) fun vault => next (f vault).1

def connectProvider (cipher : Cipher) (ownerId : String) (provider : AgentProvider) (providerAccount : String)
    (credentialKind : CredentialKind) (secret : List UInt8) (admits : Bool) (drawn : ConnectDraws)
    (stored : Stored) : Program VaultCore (Except ForgeError ProviderConnection) :=
  .read fun vault =>
    match vault.admitConnect ownerId providerAccount secret with
    | .error error => .done (.error error)
    | .ok (key, account) =>
      locked (VaultCore.connectProviderLocked cipher key ownerId provider account credentialKind secret admits
        drawn stored) .done

/-- The refresh locks only keep a call waiting: any two refreshes may be under way here. -/
def refreshProviderSecret (cipher : Cipher) (ownerId : String) (binding : ConnectionBinding) (busy : Bool)
    (exchange : List UInt8 → TokenExchange (List UInt8)) (draws : SealDraws) (begins : Stored)
    (ends : RefreshStored) : Program VaultCore (Except ForgeError (ProviderConnection × List UInt8)) :=
  .read fun vault =>
    match vault.vaultKey with
    | .error error => .done (.error error)
    | .ok key =>
      match vault.liveRecord ownerId binding with
      | .error error => .done (.error error)
      | .ok record =>
        if record.connection.credentialKind = .apiKey then
          .done (.error (.validation ("credential_not_refreshable: an API key does not rotate; reconnect to " ++
            "replace it")))
        else if busy then
          .done (.error (.conflict "connection_busy: another refresh of this connection is running"))
        else locked (VaultCore.refreshBegin cipher key ownerId binding begins) fun begun =>
          match begun with
          | .error error => .done (.error error)
          | .ok (current, version) =>
            locked (VaultCore.refreshEnd cipher key ownerId binding version (exchange current) draws ends) .done

def VaultCall.program (cipher : Cipher) : (call : VaultCall) → Program VaultCore call.Reply
  | .connectProvider ownerId provider providerAccount credentialKind secret admits drawn stored =>
    Vault.connectProvider cipher ownerId provider providerAccount credentialKind secret admits drawn stored
  | .disconnectProvider ownerId connectionId stored =>
    locked (VaultCore.disconnectProviderLocked ownerId connectionId stored) .done
  | .refreshProviderSecret ownerId binding busy exchange draws begins ends =>
    Vault.refreshProviderSecret cipher ownerId binding busy exchange draws begins ends
  | .unsealProviderSecret ownerId binding => .read fun vault => .done (vault.unsealProviderSecret cipher ownerId binding)
  | .checkProviderBinding ownerId binding => .read fun vault => .done (vault.checkProviderBinding ownerId binding)
  | .resolveProviderBinding ownerId provider connectionId =>
    .read fun vault => .done (vault.resolveProviderBinding ownerId provider connectionId)
  | .registerServiceNamespace name => locked (VaultCore.registerServiceNamespaceLocked name) .done
  | .revokeServiceNamespace name =>
    locked (VaultCore.revokeServiceNamespaceLocked name) fun removed => .done (.ok removed)

/-- The calls under way. What else goes on may change the core in any way, and store the rows with
    its own snapshots. -/
def vaulting (cipher : Cipher) : System VaultCore VaultCall.Reply where
  program := VaultCall.program cipher
  ambient vault vault' := ∃ core storedConnections,
    vault' = { vault with core, storedConnections } ∧
    (storedConnections = vault.storedConnections ∨ storedConnections = vault.providerConnections)
  admits _ _ := True

/-- A restart loads the rows, fences the rotations it finds and may have another vault key. -/
def Restarted (vault vault' : VaultCore) : Prop :=
  ∃ now, vault'.providerConnections = fenceUnfinishedRotations now vault.storedConnections ∧
    (vault'.storedConnections = vault.storedConnections ∨
      vault'.storedConnections = vault'.providerConnections)

abbrev VaultPool := Config VaultCore VaultCall.Reply

/-- A vault without a connection, and no call under way. -/
structure VaultPool.Fresh (pool : VaultPool) : Prop where
  connections : pool.shared.providerConnections = ∅
  stored : pool.shared.storedConnections = ∅
  idle : pool.tasks = []

/-- A pool that calls, crashes and restarts lead to. -/
def VaultPool.Reachable (cipher : Cipher) (pool : VaultPool) : Prop :=
  ∃ start : VaultPool, start.Fresh ∧ Lives (vaulting cipher) (fun _ _ _ => True) Restarted start pool

section Rows

/-- A row as the code makes it: named by its identifier, of an owner it admits, and sealed for itself. -/
structure RowSound (cipher : Cipher) (id : String) (record : ConnectionRecord) : Prop where
  named : record.connection.id = id
  drawn : ∃ uuid, id = connectionId uuid
  owned : validOwnerId record.connection.ownerId = true
  own : ∀ sealed, record.sealed = some sealed → ∃ (key : VaultKey) (secret : List UInt8) (draws : SealDraws),
    key.sealSecret cipher (sealBinding record.connection) secret draws = .ok sealed

/-- What the rows in memory and in the store keep to. -/
structure VaultCore.RowsSound (cipher : Cipher) (vault : VaultCore) : Prop where
  memory : vault.providerConnections.Every (RowSound cipher)
  stored : vault.storedConnections.Every (RowSound cipher)

variable {cipher : Cipher} {vault vault' : VaultCore} {id : String} {record : ConnectionRecord}

theorem persist_rows {stored : Stored} (sound : vault.RowsSound cipher) :
    (vault.persist stored).2.RowsSound cipher := by
  unfold VaultCore.persist
  split
  · exact sound
  · split
    · exact ⟨sound.memory, sound.memory⟩
    · exact sound
    · exact ⟨sound.memory, sound.memory⟩

theorem persistAfterMutation_rows {previous : Connections} {stored : Stored} (sound : vault.RowsSound cipher)
    (before : previous.Every (RowSound cipher)) :
    (vault.persistAfterMutation previous stored).2.RowsSound cipher := by
  have kept : (vault.persist stored).2.RowsSound cipher := persist_rows sound
  unfold VaultCore.persistAfterMutation
  split
  · next same => rwa [same] at kept
  · next same =>
    rw [same] at kept
    exact ⟨before, kept.stored⟩

theorem withRecord_rows (sound : vault.RowsSound cipher) (row : RowSound cipher id record) :
    (vault.withRecord id record).RowsSound cipher :=
  ⟨Every.insert sound.memory row, sound.stored⟩

theorem putRecord_rows {α : Type} {answer : Except ForgeError α} {stored : Stored}
    (sound : vault.RowsSound cipher) (row : RowSound cipher id record) :
    (vault.putRecord id record answer stored).2.RowsSound cipher := by
  have kept : ((vault.withRecord id record).persistAfterMutation vault.providerConnections stored).2.RowsSound
      cipher := persistAfterMutation_rows (withRecord_rows sound row) sound.memory
  unfold VaultCore.putRecord
  split
  · next same => rwa [same] at kept
  · next same => rwa [same] at kept

theorem putRecord_left {α : Type} {answer reply : Except ForgeError α} {stored : Stored} {kept : VaultCore}
    (put : vault.putRecord id record answer stored = (reply, kept)) (sound : vault.RowsSound cipher)
    (row : RowSound cipher id record) : kept.RowsSound cipher := by
  have left : (vault.putRecord id record answer stored).2.RowsSound cipher := putRecord_rows sound row
  rwa [put] at left

/-- A row without a secret, otherwise as it was found. -/
theorem RowSound.dropped {connection : ProviderConnection} {rotation : Option Rotation}
    (row : RowSound cipher id record) (same : connection.id = record.connection.id)
    (owner : connection.ownerId = record.connection.ownerId) :
    RowSound cipher id ⟨connection, none, rotation⟩ where
  named := same.trans row.named
  drawn := row.drawn
  owned := by
    show validOwnerId connection.ownerId = true
    rw [owner]
    exact row.owned
  own sealed absent := nomatch absent

/-- A row with another marker. -/
theorem RowSound.marked {rotation : Option Rotation} (row : RowSound cipher id record) :
    RowSound cipher id { record with rotation } :=
  ⟨row.named, row.drawn, row.owned, row.own⟩

theorem liveRecord_found {ownerId : String} {binding : ConnectionBinding}
    (live : vault.liveRecord ownerId binding = .ok record) :
    vault.providerConnections.lookup binding.connectionId = some record := by
  unfold VaultCore.liveRecord at live
  split at live
  · cases live
  · next found =>
    dsimp only at live
    split at live
    · cases live
    · split at live
      · cases live
      · split at live
        · cases live
        · split at live
          · cases live
          · split at live
            · cases live
            · rw [found, Except.ok.inj live]

section Sections

variable {key : VaultKey} {ownerId : String} {stored : Stored}

theorem connectProviderLocked_rows {provider : AgentProvider} {account : String} {kind : CredentialKind}
    {secret : List UInt8} {admits : Bool} {drawn : ConnectDraws} (valid : validOwnerId ownerId = true)
    (sound : vault.RowsSound cipher) : (vault.connectProviderLocked cipher key ownerId provider account kind
      secret admits drawn stored).2.RowsSound cipher := by
  unfold VaultCore.connectProviderLocked
  split
  · exact sound
  · dsimp only
    split
    · exact sound
    · next made =>
      apply putRecord_rows sound
      split at made
      · next record found =>
        obtain ⟨id, stored⟩ := mem_values.mp (List.mem_of_find?_eq_some found)
        have row := sound.memory id record stored
        have named : record.connection.id = id := row.named
        subst named
        refine ⟨rfl, row.drawn, row.owned, fun sealed same => ?_⟩
        cases same
        exact ⟨key, secret, drawn.draws, made⟩
      · refine ⟨rfl, ⟨drawn.uuid, rfl⟩, valid, fun sealed same => ?_⟩
        cases same
        exact ⟨key, secret, drawn.draws, made⟩

theorem disconnectProviderLocked_rows {connectionId : String} (sound : vault.RowsSound cipher) :
    (vault.disconnectProviderLocked ownerId connectionId stored).2.RowsSound cipher := by
  unfold VaultCore.disconnectProviderLocked
  split
  · exact sound
  · next record found =>
    split
    · exact sound
    · split
      · exact sound
      · exact putRecord_rows sound ((sound.memory _ _ found).dropped rfl rfl)

variable {binding : ConnectionBinding}

theorem refreshBegin_rows (sound : vault.RowsSound cipher) :
    (vault.refreshBegin cipher key ownerId binding stored).2.RowsSound cipher := by
  unfold VaultCore.refreshBegin
  split
  · exact sound
  · next record live =>
    have row := sound.memory _ _ (liveRecord_found live)
    split
    · exact putRecord_rows sound (row.dropped rfl rfl)
    · split
      · exact sound
      · dsimp only
        split
        · exact sound
        · split
          · next put => exact putRecord_left put sound row.marked
          · next put => exact putRecord_left put sound row.marked

theorem refreshEnd_rows {version : UInt64} {outcome : TokenExchange (List UInt8)} {draws : SealDraws}
    {stored : RefreshStored} (sound : vault.RowsSound cipher) :
    (vault.refreshEnd cipher key ownerId binding version outcome draws stored).2.RowsSound cipher := by
  unfold VaultCore.refreshEnd
  split
  · split
    · exact sound
    · exact sound
  · next record found =>
    obtain ⟨there, same⟩ := Option.filter_eq_some_iff.mp found
    have row := sound.memory _ _ there
    have fenced : RowSound cipher binding.connectionId (fenceAuthRequired vault.core.now record) :=
      row.dropped rfl rfl
    have at_version : record.connection.secretVersion = version := by
      simp only [Bool.and_eq_true, decide_eq_true_eq] at same
      exact same.1.2
    dsimp only
    split
    · exact persistAfterMutation_rows (withRecord_rows sound row.marked) sound.memory
    · exact persist_rows (withRecord_rows sound fenced)
    · exact persist_rows (withRecord_rows sound fenced)
    · next secret access =>
      split
      · exact persist_rows (withRecord_rows sound fenced)
      · next resealed made =>
        have renewed : RowSound cipher binding.connectionId
            ⟨{ record.connection with
                secretVersion := version + 1, refreshedAt := some vault.core.now
                updatedAt := vault.core.now }, some resealed, none⟩ := by
          refine ⟨row.named, row.drawn, row.owned, fun sealed last => ?_⟩
          cases last
          split at made
          · cases made
          · rw [← at_version]
            cases done : key.sealSecret cipher (sealBinding { record.connection with
                secretVersion := record.connection.secretVersion + 1 }) secret draws with
            | error error =>
              rw [done] at made
              cases made
            | ok sealed =>
              rw [done] at made
              cases made
              exact ⟨key, secret, draws, done⟩
        split
        · next put => exact putRecord_left put sound renewed
        · next put => exact persist_rows (withRecord_rows (putRecord_left put sound renewed) fenced)

end Sections

theorem admitConnect_ok {ownerId providerAccount account : String} {secret : List UInt8} {key : VaultKey}
    (admitted : vault.admitConnect ownerId providerAccount secret = .ok (key, account)) :
    validOwnerId ownerId = true := by
  unfold VaultCore.admitConnect at admitted
  cases known : vault.vaultKey with
  | error error =>
    rw [known] at admitted
    cases admitted
  | ok vaultKey =>
    rw [known] at admitted
    cases owner : vault.requireOwner ownerId with
    | error error =>
      change (vault.requireOwner ownerId >>= _) = _ at admitted
      rw [owner] at admitted
      cases admitted
    | ok _ =>
      unfold VaultCore.requireOwner at owner
      cases valid : validOwnerId ownerId with
      | false =>
        rw [valid] at owner
        cases owner
      | true => rfl

/-- Every section of a call leaves the rows sound. -/
theorem VaultCall.program_rows (call : VaultCall) : (call.program cipher).Meets (VaultCore.RowsSound cipher)
    (fun _ vault' _ => vault'.RowsSound cipher) (fun _ => True) := by
  cases call with
  | connectProvider ownerId provider providerAccount credentialKind secret admits drawn stored =>
    intro vault _
    dsimp only
    split
    · exact True.intro
    · next admitted =>
      intro found sound
      exact ⟨connectProviderLocked_rows (admitConnect_ok admitted) sound, True.intro⟩
  | disconnectProvider ownerId connectionId stored =>
    exact fun vault sound => ⟨disconnectProviderLocked_rows sound, True.intro⟩
  | refreshProviderSecret ownerId binding busy exchange draws begins ends =>
    intro vault _
    dsimp only
    split
    · exact True.intro
    · split
      · exact True.intro
      · split
        · exact True.intro
        · split
          · exact True.intro
          · intro found sound
            refine ⟨refreshBegin_rows sound, ?_⟩
            dsimp only
            split
            · exact True.intro
            · exact fun last sound => ⟨refreshEnd_rows sound, True.intro⟩
  | unsealProviderSecret ownerId binding => exact fun _ _ => True.intro
  | checkProviderBinding ownerId binding => exact fun _ _ => True.intro
  | resolveProviderBinding ownerId provider connectionId => exact fun _ _ => True.intro
  | registerServiceNamespace name =>
    intro vault sound
    refine ⟨?_, True.intro⟩
    show (vault.registerServiceNamespaceLocked name).2.RowsSound cipher
    unfold VaultCore.registerServiceNamespaceLocked
    split
    · exact sound
    · exact ⟨sound.memory, sound.stored⟩
  | revokeServiceNamespace name => exact fun vault sound => ⟨⟨sound.memory, sound.stored⟩, True.intro⟩

theorem Restarted.rows (restarted : Restarted vault vault') (sound : vault.RowsSound cipher) :
    vault'.RowsSound cipher := by
  obtain ⟨now, memory, stored⟩ := restarted
  have fenced : vault'.providerConnections.Every (RowSound cipher) := by
    rw [memory]
    intro id record found
    unfold fenceUnfinishedRotations at found
    rw [lookup_mapValues] at found
    obtain ⟨old, there, rfl⟩ := Option.map_eq_some_iff.mp found
    have row := sound.stored _ _ there
    split
    · exact row.dropped rfl rfl
    · exact row
  refine ⟨fenced, ?_⟩
  rcases stored with same | same
  · rw [same]
    exact sound.stored
  · rw [same]
    exact fenced

theorem vaulting_certified : Certified (vaulting cipher) (fun _ _ _ => True) (VaultCore.RowsSound cipher)
    (fun _ _ vault' _ => vault'.RowsSound cipher) fun _ _ => True where
  programs := VaultCall.program_rows
  ambient vault vault' sound moved := by
    obtain ⟨core, stored, rfl, same | same⟩ := moved
    · exact ⟨sound.memory, same ▸ sound.stored⟩
    · exact ⟨sound.memory, same ▸ sound.memory⟩
  kept _ _ _ _ _ _ kept := kept

/-- The rows of every reachable pool are sound. -/
theorem VaultPool.Reachable.rows {pool : VaultPool} (reachable : pool.Reachable cipher) :
    pool.shared.RowsSound cipher := by
  obtain ⟨start, fresh, lives⟩ := reachable
  have begun : start.shared.RowsSound cipher := by
    constructor
    · rw [fresh.connections]
      exact every_empty
    · rw [fresh.stored]
      exact every_empty
  have idle : Sound (VaultCore.RowsSound cipher) (fun _ _ vault' _ => vault'.RowsSound cipher)
      (fun _ _ => True) start := by
    refine ⟨begun, fun task member => ?_⟩
    rw [fresh.idle] at member
    cases member
  exact (vaulting_certified.lives (fun _ _ sound restarted => restarted.rows sound) lives idle).holds

end Rows

end Jeryu.Vault
