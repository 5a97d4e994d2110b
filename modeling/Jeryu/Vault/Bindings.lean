import Jeryu.Auth.Passwords
import Jeryu.Vault.System

/-!
The binding a lease is handed, and the check every use of it makes.
-/

namespace Jeryu.Vault

open KeyedMap HashMap LockProgram Aead Text

open Jeryu.Core (ForgeError ForgeCore DateTime)

/-- A connected connection of the owner for the provider. -/
structure ConnectionRecord.Ready (record : ConnectionRecord) (ownerId : String) (provider : AgentProvider) :
    Prop where
  owner : record.connection.ownerId = ownerId
  provider : record.connection.provider = provider
  connected : record.connection.state = .connected

def ProviderConnection.binding (connection : ProviderConnection) : ConnectionBinding where
  provider := connection.provider
  connectionId := connection.id
  connectionGeneration := connection.connectionGeneration

/-- The call names a connected connection of its owner and provider, or there is just one. -/
def VaultCore.Picks (vault : VaultCore) (ownerId : String) (provider : AgentProvider) :
    Option String → Prop
  | some id => ∃ record, vault.providerConnections.lookup id = some record ∧ record.Ready ownerId provider
  | none => ∃ id record, vault.providerConnections.lookup id = some record ∧ record.Ready ownerId provider ∧
      ∀ id' record', vault.providerConnections.lookup id' = some record' → record'.Ready ownerId provider →
        id' = id

/-- What is handed out is accepted, and where nothing is accepted nothing is handed out. -/
structure VaultCore.HandsOutAccepted (vault : VaultCore) (ownerId : String) (provider : AgentProvider)
    (connectionId : Option String) : Prop where
  accepted : ∀ binding, vault.resolveProviderBinding ownerId provider connectionId = .ok binding →
    ∃ connection, vault.checkProviderBinding ownerId binding = .ok connection ∧
      connection.ownerId = ownerId ∧ connection.provider = provider
  refused : (∀ id record, vault.providerConnections.lookup id = some record →
      record.connection.ownerId = ownerId → record.connection.provider = provider →
      ∀ connection, vault.checkProviderBinding ownerId record.connection.binding ≠ .ok connection) →
    ∃ error, vault.resolveProviderBinding ownerId provider connectionId = .error error

/-- A service owner is registered. -/
def VaultCore.Registered (vault : VaultCore) (ownerId : String) : Prop :=
  (stripPrefix ownerId "service/").filter (fun name => !vault.serviceNamespaces.contains name) = none

section Picks

variable {cipher : Cipher} {vault : VaultCore} {ownerId : String} {provider : AgentProvider}
variable {connectionId : Option String} {record : ConnectionRecord} {id : String}

/-- The rows by their identifiers. -/
def VaultCore.Keyed (vault : VaultCore) : Prop :=
  vault.providerConnections.Every fun id record => record.connection.id = id

theorem VaultCore.Keyed.nodup (keyed : vault.Keyed) : vault.providerConnections.values.Nodup :=
  List.Nodup.of_map _ (nodup_values keyed)

def VaultCore.readyRecords (vault : VaultCore) (ownerId : String) (provider : AgentProvider) :
    List ConnectionRecord :=
  (vault.providerConnections.values.filter fun record =>
    record.connection.ownerId = ownerId && record.connection.provider = provider).filter fun record =>
      record.connection.state = .connected

theorem mem_readyRecords : record ∈ vault.readyRecords ownerId provider ↔
    (∃ id, vault.providerConnections.lookup id = some record) ∧ record.Ready ownerId provider := by
  unfold VaultCore.readyRecords
  simp only [List.mem_filter, Bool.and_eq_true, decide_eq_true_eq, mem_values]
  constructor
  · intro listed
    obtain ⟨⟨there, owner, same⟩, connected⟩ := listed
    exact ⟨there, owner, same, connected⟩
  · intro known
    obtain ⟨there, ready⟩ := known
    exact ⟨⟨there, ready.owner, ready.provider⟩, ready.connected⟩

theorem readyRecords_single (keyed : vault.Keyed) :
    (∃ first, vault.readyRecords ownerId provider = [first]) ↔ vault.Picks ownerId provider none := by
  constructor
  · intro single
    obtain ⟨first, single⟩ := single
    have listed : first ∈ vault.readyRecords ownerId provider := by
      rw [single]
      exact List.mem_singleton_self first
    obtain ⟨⟨id, found⟩, ready⟩ := mem_readyRecords.mp listed
    refine ⟨id, first, found, ready, fun id' record' found' ready' => ?_⟩
    have other := mem_readyRecords.mpr ⟨⟨id', found'⟩, ready'⟩
    rw [single] at other
    rw [← keyed id first found, ← keyed id' record' found', List.mem_singleton.mp other]
  · intro picks
    obtain ⟨id, first, found, ready, only⟩ := picks
    have listed := mem_readyRecords.mpr ⟨⟨id, found⟩, ready⟩
    have same (record : ConnectionRecord) (member : record ∈ vault.readyRecords ownerId provider) :
        record = first := by
      obtain ⟨⟨id', found'⟩, ready'⟩ := mem_readyRecords.mp member
      rw [only id' record found' ready', found] at found'
      exact (Option.some.inj found').symm
    have distinct : (vault.readyRecords ownerId provider).Nodup := (keyed.nodup.filter _).filter _
    cases whole : vault.readyRecords ownerId provider with
    | nil =>
      rw [whole] at listed
      cases listed
    | cons head rest =>
      rw [whole] at same distinct
      cases rest with
      | nil => exact ⟨head, rfl⟩
      | cons next more =>
        have heads := (same head (by simp)).trans (same next (by simp)).symm
        rw [heads] at distinct
        exact absurd List.mem_cons_self (List.nodup_cons.mp distinct).1

/-- Which connection a call picks, if one that is connected. -/
theorem pickConnection_ready (keyed : vault.Keyed) :
    (∃ connection, vault.pickConnection ownerId provider connectionId = .ok connection ∧
      connection.state = .connected) ↔ vault.Picks ownerId provider connectionId := by
  unfold VaultCore.pickConnection
  cases connectionId with
  | some id =>
    dsimp only
    constructor
    · intro picked
      obtain ⟨connection, picked, connected⟩ := picked
      split at picked
      · cases picked
      · next record found =>
        split at picked
        · cases picked
        · next own =>
          rw [not_or, not_not, not_not] at own
          obtain rfl := Except.ok.inj picked
          exact ⟨record, found, own.1, own.2, connected⟩
    · intro picks
      obtain ⟨record, found, ready⟩ := picks
      rw [found]
      dsimp only
      rw [if_neg (by rw [not_or, not_not, not_not]; exact ⟨ready.owner, ready.provider⟩)]
      exact ⟨_, rfl, ready.connected⟩
  | none =>
    rw [← readyRecords_single keyed]
    dsimp only
    constructor
    · intro picked
      obtain ⟨connection, picked, -⟩ := picked
      split at picked
      · split at picked
        · cases picked
        · cases picked
      · next first single => exact ⟨first, single⟩
      · cases picked
    · intro single
      obtain ⟨first, single⟩ := single
      have listed : first ∈ vault.readyRecords ownerId provider := by
        rw [single]
        exact List.mem_singleton_self first
      unfold VaultCore.readyRecords at single
      rw [single]
      exact ⟨_, rfl, (mem_readyRecords.mp listed).2.connected⟩

theorem pickConnection_found {connection : ProviderConnection}
    (picked : vault.pickConnection ownerId provider connectionId = .ok connection) :
    ∃ id record, vault.providerConnections.lookup id = some record ∧ record.connection = connection ∧
      connection.ownerId = ownerId ∧ connection.provider = provider := by
  unfold VaultCore.pickConnection at picked
  cases connectionId with
  | some id =>
    dsimp only at picked
    split at picked
    · cases picked
    · next record found =>
      split at picked
      · cases picked
      · next own =>
        rw [not_or, not_not, not_not] at own
        obtain rfl := Except.ok.inj picked
        exact ⟨id, record, found, rfl, own.1, own.2⟩
  | none =>
    dsimp only at picked
    split at picked
    · split at picked
      · cases picked
      · cases picked
    · next first single =>
      have listed : first ∈ vault.readyRecords ownerId provider := by
        unfold VaultCore.readyRecords
        rw [single]
        exact List.mem_singleton_self first
      obtain ⟨⟨id, found⟩, ready⟩ := mem_readyRecords.mp listed
      obtain rfl := Except.ok.inj picked
      exact ⟨id, first, found, rfl, ready.owner, ready.provider⟩
    · cases picked

/-- A binding is handed out for a connected connection the call picks, of a registered owner. -/
theorem resolveProviderBinding_ok {binding : ConnectionBinding}
    (resolved : vault.resolveProviderBinding ownerId provider connectionId = .ok binding) :
    vault.Registered ownerId ∧ ∃ connection,
      vault.pickConnection ownerId provider connectionId = .ok connection ∧ connection.state = .connected ∧
      binding = { provider, connectionId := connection.id
                  connectionGeneration := connection.connectionGeneration } := by
  unfold VaultCore.resolveProviderBinding at resolved
  split at resolved
  · cases resolved
  · next registered =>
    split at resolved
    · cases resolved
    · next connection picked =>
      split at resolved
      · next connected => exact ⟨registered, connection, picked, connected, (Except.ok.inj resolved).symm⟩
      · cases resolved
      · cases resolved
      · cases resolved

theorem resolveProviderBinding_picks {connection : ProviderConnection} (registered : vault.Registered ownerId)
    (picked : vault.pickConnection ownerId provider connectionId = .ok connection)
    (connected : connection.state = .connected) :
    ∃ binding, vault.resolveProviderBinding ownerId provider connectionId = .ok binding := by
  unfold VaultCore.resolveProviderBinding
  unfold VaultCore.Registered at registered
  rw [registered]
  dsimp only
  rw [picked]
  dsimp only
  rw [connected]
  exact ⟨_, rfl⟩

/-- A connected connection of an active, registered owner is accepted at its own generation. -/
theorem checkProviderBinding_ready {connection : ProviderConnection} (registered : vault.Registered ownerId)
    (active : vault.ownerActive ownerId = true)
    (found : vault.providerConnections.lookup connection.id = some record)
    (same : record.connection = connection) (ready : record.Ready ownerId provider) :
    vault.checkProviderBinding ownerId
      { provider, connectionId := connection.id, connectionGeneration := connection.connectionGeneration } =
      .ok connection := by
  subst same
  unfold VaultCore.checkProviderBinding VaultCore.liveRecord
  unfold VaultCore.Registered at registered
  dsimp only
  rw [found]
  dsimp only
  rw [if_neg (by rw [not_or, not_not, not_not]; exact ⟨ready.owner, ready.provider⟩), registered]
  dsimp only
  rw [active, ready.connected]
  simp [Except.map]

/-- An owner that is not active gets nothing accepted. -/
theorem checkProviderBinding_inactive {binding : ConnectionBinding} {connection : ProviderConnection}
    (active : vault.ownerActive ownerId = false) :
    vault.checkProviderBinding ownerId binding ≠ .ok connection := by
  unfold VaultCore.checkProviderBinding VaultCore.liveRecord
  split
  · exact fun same => nomatch same
  · dsimp only
    split
    · exact fun same => nomatch same
    · split
      · exact fun same => nomatch same
      · rw [active]
        exact fun same => nomatch same

theorem registered_of_inactive (active : vault.ownerActive ownerId = false) : vault.Registered ownerId := by
  unfold VaultCore.Registered
  unfold VaultCore.ownerActive at active
  split at active
  · next login user =>
    have service : stripPrefix ownerId "service/" = none := by
      cases other : stripPrefix ownerId "service/" with
      | none => rfl
      | some name =>
        have both := (stripPrefix_eq_some.mp user).symm.trans (stripPrefix_eq_some.mp other)
        have chars := congrArg String.toList both
        rw [String.toList_append, String.toList_append] at chars
        exact absurd (List.cons.inj chars).1 (by decide)
    rw [service]
    rfl
  · cases active

end Picks

/-- What is handed out is accepted, unless a call picks a connection of an account that may not
    authenticate. -/
theorem handsOutAccepted_iff {cipher : Cipher} {pool : VaultPool} (reachable : pool.Reachable cipher)
    (ownerId : String) (provider : AgentProvider) (connectionId : Option String) :
    pool.shared.HandsOutAccepted ownerId provider connectionId ↔
      pool.shared.ownerActive ownerId = true ∨ ¬pool.shared.Picks ownerId provider connectionId := by
  have rows := reachable.rows.memory
  have keyed : pool.shared.Keyed := fun id record found => (rows id record found).named
  constructor
  · intro hands
    by_contra neither
    rw [not_or, not_not, Bool.not_eq_true] at neither
    obtain ⟨inactive, picks⟩ := neither
    obtain ⟨connection, picked, connected⟩ := (pickConnection_ready keyed).mpr picks
    obtain ⟨binding, resolved⟩ :=
      resolveProviderBinding_picks (registered_of_inactive inactive) picked connected
    obtain ⟨accepted, checked, -⟩ := hands.accepted binding resolved
    exact checkProviderBinding_inactive inactive checked
  · intro condition
    have accepted (binding : ConnectionBinding)
        (resolved : pool.shared.resolveProviderBinding ownerId provider connectionId = .ok binding) :
        ∃ id record, pool.shared.providerConnections.lookup id = some record ∧
          record.connection.ownerId = ownerId ∧ record.connection.provider = provider ∧
          binding = record.connection.binding ∧
          pool.shared.checkProviderBinding ownerId binding = .ok record.connection := by
      obtain ⟨registered, connection, picked, connected, rfl⟩ := resolveProviderBinding_ok resolved
      have active : pool.shared.ownerActive ownerId = true := by
        rcases condition with active | none
        · exact active
        · exact absurd ((pickConnection_ready keyed).mp ⟨connection, picked, connected⟩) none
      obtain ⟨id, record, found, same, owner, own⟩ := pickConnection_found picked
      subst same
      have named : record.connection.id = id := keyed id record found
      subst named
      refine ⟨_, record, found, owner, own, ?_, ?_⟩
      · rw [ProviderConnection.binding, own]
      · exact checkProviderBinding_ready registered active found rfl ⟨owner, own, connected⟩
    constructor
    · intro binding resolved
      obtain ⟨id, record, -, owner, own, -, checked⟩ := accepted binding resolved
      exact ⟨_, checked, owner, own⟩
    · intro none
      cases resolved : pool.shared.resolveProviderBinding ownerId provider connectionId with
      | error error => exact ⟨error, rfl⟩
      | ok binding =>
        obtain ⟨id, record, found, owner, own, rfl, checked⟩ := accepted binding resolved
        exact absurd checked (none id record found owner own _)

section Demo

def demoDraws : ConnectDraws where
  uuid := Vector.replicate 16 7
  draws := { dataKey := some (Vector.replicate 32 1), nonce := some (Vector.replicate 12 2)
             keyNonce := some (Vector.replicate 12 3) }

/-- `alice` has an account, and a vault that is empty. -/
def aliceVault : VaultCore where
  core := ((Core.createAccount "alice" "correct horse" .user (.ok "$argon2id$salt$correct horse")).run.exec
    { state := .empty, uuids := 0, now := 0, storage := none, auditEnforceMerge := none
      repoMaterializer := none, repoRelocator := none }).2
  providerConnections := ∅
  storedConnections := ∅
  serviceNamespaces := []
  vault := some ⟨"vk-demo", List.replicate 32 9⟩

def connectAlice (secret : List UInt8) : VaultCall :=
  .connectProvider "user/alice" .claude "alice.example.com" .oauthRefresh secret true demoDraws .committed

def connectedPool : VaultPool := Config.play (vaulting ideal) ⟨aliceVault, []⟩ [.alone (connectAlice [1])]

theorem connectedPool_reachable : connectedPool.Reachable ideal := by
  refine ⟨⟨aliceVault, []⟩, ⟨rfl, rfl, rfl⟩, Run.lives (play_run ⟨⟨True.intro, ?_⟩, True.intro⟩)⟩
  exact Program.permits_of_every (fun _ _ => True.intro) _ _

/-- While `alice` may sign in, the binding of her connection is accepted. -/
theorem alice_handed : (connectedPool.shared.resolveProviderBinding "user/alice" .claude none).isOk = true ∧
    connectedPool.shared.HandsOutAccepted "user/alice" .claude none :=
  ⟨by decide +kernel,
    (handsOutAccepted_iff connectedPool_reachable "user/alice" .claude none).mpr (.inl (by decide +kernel))⟩

/-- Her account is disabled. -/
def disabledPool : VaultPool :=
  ⟨{ connectedPool.shared with
      core := ((Core.disableAccount "alice").run.exec connectedPool.shared.core).2 }, connectedPool.tasks⟩

/-- The binding is still handed out, and no use of it is accepted. -/
theorem disabled_handed : ¬∀ (cipher : Cipher) (pool : VaultPool), pool.Reachable cipher →
    ∀ ownerId provider connectionId, pool.shared.HandsOutAccepted ownerId provider connectionId := by
  intro always
  have reachable : disabledPool.Reachable ideal := by
    obtain ⟨start, fresh, lives⟩ := connectedPool_reachable
    exact ⟨start, fresh, lives.tail (.step (.ambient ⟨_, _, rfl, .inl rfl⟩))⟩
  have hands := always ideal disabledPool reachable "user/alice" .claude none
  have resolved : (disabledPool.shared.resolveProviderBinding "user/alice" .claude none).isOk = true := by
    decide +kernel
  have inactive : disabledPool.shared.ownerActive "user/alice" = false := by decide +kernel
  cases handed : disabledPool.shared.resolveProviderBinding "user/alice" .claude none with
  | error error =>
    rw [handed] at resolved
    cases resolved
  | ok binding =>
    obtain ⟨connection, checked, -⟩ := hands.accepted binding handed
    exact checkProviderBinding_inactive inactive checked

end Demo

end Jeryu.Vault
