import Jeryu.Vault.Bindings

/-!
The rows a vault key seals for, those of connections and of a bot's refresh replays, and what opens
in which of them.
-/

namespace Jeryu.Vault

open KeyedMap HashMap LockProgram Aead Bytes

open Jeryu.Core (ForgeError)

/-- `Uuid::to_string` -/
def hyphenated (uuid : Vector UInt8 16) : String :=
  let hex := (Text.hexEncode uuid.toList).toList
  String.ofList (hex.take 8) ++ "-" ++ String.ofList ((hex.drop 8).take 4) ++ "-" ++
    String.ofList ((hex.drop 12).take 4) ++ "-" ++ String.ofList ((hex.drop 16).take 4) ++ "-" ++
    String.ofList (hex.drop 20)

/-- `sha256` stands for the digest of the `sha2` crate. -/
def tokenHash (sha256 : List UInt8 → List UInt8) (token : String) : String :=
  Text.hexEncode (sha256 (utf8 token))

def refreshReplayBinding (tokenHash botId : String) (generation : UInt64) : SealBinding where
  connectionId := tokenHash
  ownerId := botId
  provider := "jeryu-bot"
  generation
  secretVersion := 1
  credentialKind := "bot.refresh.replay"

/-- `replay` is the text of the session that is sealed. -/
def sealRefreshReplay (cipher : Cipher) (vault : Option VaultKey) (presentedHash : String)
    (botId : Vector UInt8 16) (generation : UInt64) (replay : List UInt8) (draws : SealDraws) :
    Except ForgeError SealedSecret :=
  match vault with
  | none => .error (.validation "vault_unavailable: this server has no vault key configured")
  | some key => key.sealSecret cipher (refreshReplayBinding presentedHash (hyphenated botId) generation) replay draws

section Stored

variable (cipher : Cipher) (sha256 : List UInt8 → List UInt8)

/-- The row is in memory or in the store of a pool that can be reached. -/
def StoredRow (record : ConnectionRecord) : Prop :=
  ∃ pool : VaultPool, pool.Reachable cipher ∧ ∃ id,
    pool.shared.providerConnections.lookup id = some record ∨
      pool.shared.storedConnections.lookup id = some record

/-- The bindings of the rows there are, of either use of the vault. -/
inductive Bound : SealBinding → Prop where
  | connection {record : ConnectionRecord} (row : StoredRow cipher record) :
      Bound (sealBinding record.connection)
  | replay (token : String) (botId : Vector UInt8 16) (generation : UInt64) :
      Bound (refreshReplayBinding (tokenHash sha256 token) (hyphenated botId) generation)

/-- The sealed secrets that are stored, with the bindings of their rows. -/
inductive StoredSeal : SealBinding → SealedSecret → Prop where
  | connection {record : ConnectionRecord} {sealed : SealedSecret} (row : StoredRow cipher record)
      (held : record.sealed = some sealed) : StoredSeal (sealBinding record.connection) sealed
  | replay {vault : Option VaultKey} {token : String} {botId : Vector UInt8 16} {generation : UInt64}
      {replay : List UInt8} {draws : SealDraws} {sealed : SealedSecret}
      (made : sealRefreshReplay cipher vault (tokenHash sha256 token) botId generation replay draws = .ok sealed) :
      StoredSeal (refreshReplayBinding (tokenHash sha256 token) (hyphenated botId) generation) sealed

variable {cipher sha256} {binding binding' : SealBinding} {sealed : SealedSecret} {record : ConnectionRecord}

theorem StoredRow.sound (row : StoredRow cipher record) : ∃ id, RowSound cipher id record := by
  obtain ⟨pool, reachable, id, found | found⟩ := row
  · exact ⟨id, reachable.rows.memory id record found⟩
  · exact ⟨id, reachable.rows.stored id record found⟩

theorem StoredSeal.bound (stored : StoredSeal cipher sha256 binding sealed) : Bound cipher sha256 binding := by
  cases stored with
  | connection row held => exact .connection row
  | replay made => exact .replay _ _ _

theorem alphanumeric_plain {c : Char} (letter : Text.isAsciiAlphanumeric c = true) :
    0 < c.toNat ∧ c.toNat < 128 := by
  unfold Text.isAsciiAlphanumeric Text.isAsciiDigit Text.isAsciiLowercase Text.isAsciiUppercase at letter
  simp only [Bool.or_eq_true, Bool.and_eq_true, decide_eq_true_eq, Char.le_def, UInt32.le_iff_toNat_le] at letter
  have limits : ('0'.val.toNat = 48 ∧ '9'.val.toNat = 57) ∧ ('a'.val.toNat = 97 ∧ 'z'.val.toNat = 122) ∧
      'A'.val.toNat = 65 ∧ 'Z'.val.toNat = 90 := by decide
  show 0 < c.val.toNat ∧ c.val.toNat < 128
  omega

theorem nameChar_plain {c : Char} (name : isNameChar c = true) : 0 < c.toNat ∧ c.toNat < 128 := by
  rcases Bool.or_eq_true_iff.mp name with letter | mark
  · exact alphanumeric_plain letter
  · have listed : c ∈ ['.', '_', ':', '-'] := List.contains_iff_mem.mp mark
    simp only [List.mem_cons, List.not_mem_nil, or_false] at listed
    rcases listed with rfl | rfl | rfl | rfl <;> decide

theorem validOwnerId_plain {ownerId : String} (valid : validOwnerId ownerId = true) : Plain ownerId := by
  unfold validOwnerId at valid
  split at valid
  · cases valid
  · next name found =>
    simp only [Bool.and_eq_true] at valid
    have letters : Plain name := fun c member => nameChar_plain (List.all_eq_true.mp valid.1.2 c member)
    have user : Plain "user/" := by decide
    have service : Plain "service/" := by decide
    rcases Option.or_eq_some_iff.mp found with first | ⟨-, second⟩
    · rw [Text.stripPrefix_eq_some.mp first]
      exact user.append letters
    · rw [Text.stripPrefix_eq_some.mp second]
      exact service.append letters

theorem hyphenated_plain (uuid : Vector UInt8 16) : Plain (hyphenated uuid) := by
  have hex := plain_hexEncode uuid.toList
  have part (letters : List Char) (some_ : ∀ c ∈ letters, c ∈ (Text.hexEncode uuid.toList).toList) :
      Plain (String.ofList letters) := by
    intro c member
    rw [String.toList_ofList] at member
    exact hex c (some_ c member)
  have dash : Plain "-" := by decide
  have taken (n m : Nat) : Plain (String.ofList (((Text.hexEncode uuid.toList).toList.drop n).take m)) :=
    part _ fun c member => List.mem_of_mem_drop (List.mem_of_mem_take member)
  have first := part _ fun c member => List.mem_of_mem_take (i := 8) member
  have last := part _ fun c member => List.mem_of_mem_drop (i := 20) member
  exact ((((((((first.append dash).append (taken 8 4)).append dash).append (taken 12 4)).append dash).append
    (taken 16 4)).append dash).append last)

/-- No text of a binding that the code makes has a NUL. -/
theorem Bound.plain (bound : Bound cipher sha256 binding) : binding.Plain := by
  cases bound with
  | @connection record row =>
    obtain ⟨id, sound⟩ := row.sound
    obtain ⟨uuid, drawn⟩ := sound.drawn
    constructor
    · have start : Plain "pc_" := by decide
      show Plain record.connection.id
      rw [sound.named, drawn]
      exact start.append (plain_hexEncode _)
    · exact validOwnerId_plain sound.owned
    · show Plain record.connection.provider.asStr
      cases record.connection.provider <;> decide
    · show Plain record.connection.credentialKind.asStr
      cases record.connection.credentialKind <;> decide
  | replay token botId generation =>
    constructor
    · exact plain_hexEncode _
    · exact hyphenated_plain botId
    · show Plain "jeryu-bot"
      decide
    · show Plain "bot.refresh.replay"
      decide

/-- Every stored secret was sealed for the row it is in. -/
theorem StoredSeal.own (stored : StoredSeal cipher sha256 binding sealed) :
    ∃ (key : VaultKey) (secret : List UInt8) (draws : SealDraws),
      key.sealSecret cipher binding secret draws = .ok sealed := by
  cases stored with
  | connection row held =>
    obtain ⟨id, sound⟩ := row.sound
    exact sound.own sealed held
  | @replay vault token botId generation replay draws _ made =>
    unfold sealRefreshReplay at made
    cases vault with
    | none => cases made
    | some key => exact ⟨key, replay, draws, made⟩

/-- The associated data names the row, so that a stored secret opens in its own row as it was sealed,
    and in no other. -/
theorem secrets_own_rows (authentic : cipher.Authentic) (sha256 : List UInt8 → List UInt8) :
    (∀ binding binding', Bound cipher sha256 binding → Bound cipher sha256 binding' →
      (binding.aad = binding'.aad ↔ binding = binding')) ∧
    (∀ binding sealed, StoredSeal cipher sha256 binding sealed →
      ∃ (key : VaultKey) (secret : List UInt8) (draws : SealDraws),
        key.sealSecret cipher binding secret draws = .ok sealed ∧
        key.openSecret cipher binding sealed = .ok secret) ∧
    ∀ binding sealed binding', StoredSeal cipher sha256 binding sealed → Bound cipher sha256 binding' →
      binding' ≠ binding → ∀ key : VaultKey, ∃ error, key.openSecret cipher binding' sealed = .error error := by
  refine ⟨fun binding binding' bound bound' => aad_inj bound.plain bound'.plain, ?_, ?_⟩
  · intro binding sealed stored
    obtain ⟨key, secret, draws, made⟩ := stored.own
    exact ⟨key, secret, draws, made, openSecret_own authentic made⟩
  · intro binding sealed binding' stored bound' other key
    obtain ⟨vault, secret, draws, made⟩ := stored.own
    exact openSecret_other authentic stored.bound.plain bound'.plain made other

end Stored

/-- The row of the connection `alice` makes. -/
theorem alice_sealed : ∃ (record : ConnectionRecord) (sealed : SealedSecret), record.sealed = some sealed ∧
    ∃ (key : VaultKey) (secret : List UInt8) (draws : SealDraws),
      key.sealSecret ideal (sealBinding record.connection) secret draws = .ok sealed ∧
      key.openSecret ideal (sealBinding record.connection) sealed = .ok secret := by
  have stored : ((connectedPool.shared.providerConnections.lookup (connectionId demoDraws.uuid)).bind
      ConnectionRecord.sealed).isSome = true := by decide +kernel
  obtain ⟨sealed, held⟩ := Option.isSome_iff_exists.mp stored
  obtain ⟨record, found, own⟩ := Option.bind_eq_some_iff.mp held
  have row : StoredRow ideal record := ⟨connectedPool, connectedPool_reachable, _, .inl found⟩
  exact ⟨record, sealed, own, (secrets_own_rows ideal_authentic fun _ => []).2.1 _ _ (.connection row own)⟩

end Jeryu.Vault
