import Jeryu.Core.Model
import Jeryu.Library.Aead
import Jeryu.Library.Bytes

/-!
Envelope encryption for provider secrets: a fresh data key for each secret, encrypted under the
deployment's vault key, both bound to the row the secret is sealed for.
-/

namespace Jeryu.Vault

open Aead Bytes

open Jeryu.Core (ForgeError)

/-- The row identity a sealed secret is bound to. -/
structure SealBinding where
  connectionId : String
  ownerId : String
  provider : String
  generation : UInt64
  secretVersion : UInt64
  credentialKind : String
  deriving DecidableEq

def AAD_DOMAIN : List UInt8 := utf8 "jeryu.vault.provider-secret.v1" ++ [0]

def SealBinding.aad (binding : SealBinding) : List UInt8 :=
  AAD_DOMAIN ++ (ended 0 [utf8 binding.connectionId, utf8 binding.ownerId, utf8 binding.provider,
    utf8 binding.credentialKind] ++ (beBytes 8 binding.generation.toNat ++
      beBytes 8 binding.secretVersion.toNat))

/-- A sealed secret as stored. -/
structure SealedSecret where
  keyId : String
  keyNonce : String
  wrappedKey : String
  nonce : String
  ciphertext : String
  deriving DecidableEq

/-- The deployment's vault key. -/
structure VaultKey where
  id : String
  key : List UInt8

/-- What the system's random source answers when a secret is sealed. -/
structure SealDraws where
  dataKey : Option (Vector UInt8 32)
  nonce : Option (Vector UInt8 12)
  keyNonce : Option (Vector UInt8 12)

def vaultFailure : ForgeError :=
  .storage "vault_crypto_failed: the vault could not seal or open a secret"

def tampered : ForgeError :=
  .validation "vault_secret_unreadable: the sealed secret failed authentication"

section Functions

variable (cipher : Cipher)

/-- `key_from`: AES-256 takes 32 bytes. -/
def keyFrom (bytes : List UInt8) : Except ForgeError (List UInt8) :=
  if bytes.length = 32 then .ok bytes else .error vaultFailure

def encrypt (key aad plaintext : List UInt8) (drawn : Option (Vector UInt8 12)) :
    Except ForgeError (List UInt8 × List UInt8) :=
  match drawn with
  | none => .error vaultFailure
  | some nonce =>
    match cipher.encrypt key nonce.toList aad plaintext with
    | none => .error vaultFailure
    | some sealed => .ok (nonce.toList, sealed)

def decrypt (key aad : List UInt8) (nonceHex sealedHex : String) : Except ForgeError (List UInt8) :=
  match (hexDecode nonceHex).filter (·.length = 12), hexDecode sealedHex with
  | some nonce, some sealed =>
    match cipher.decrypt key nonce aad sealed with
    | some plain => .ok plain
    | none => .error tampered
  | _, _ => .error tampered

namespace VaultKey

/-- `seal` -/
def sealSecret (vault : VaultKey) (binding : SealBinding) (secret : List UInt8) (draws : SealDraws) :
    Except ForgeError SealedSecret := do
  let dataKey ← match draws.dataKey with
    | some drawn => .ok drawn.toList
    | none => .error vaultFailure
  let aad := binding.aad
  let dataKey' ← keyFrom dataKey
  let (nonce, ciphertext) ← encrypt cipher dataKey' aad secret draws.nonce
  let (keyNonce, wrappedKey) ← encrypt cipher vault.key aad dataKey draws.keyNonce
  return { keyId := vault.id, keyNonce := Text.hexEncode keyNonce, wrappedKey := Text.hexEncode wrappedKey
           nonce := Text.hexEncode nonce, ciphertext := Text.hexEncode ciphertext }

/-- `open` -/
def openSecret (vault : VaultKey) (binding : SealBinding) (sealed : SealedSecret) :
    Except ForgeError (List UInt8) := do
  if sealed.keyId ≠ vault.id then
    throw (.validation "vault_key_mismatch: the secret was sealed under a different vault key")
  let aad := binding.aad
  let dataKey ← decrypt cipher vault.key aad sealed.keyNonce sealed.wrappedKey
  let dataKey' ← keyFrom dataKey
  decrypt cipher dataKey' aad sealed.nonce sealed.ciphertext

end VaultKey

end Functions

section Bindings

variable {binding binding' : SealBinding}

/-- Each of the texts a binding is of has no NUL. -/
structure SealBinding.Plain (binding : SealBinding) : Prop where
  connectionId : Bytes.Plain binding.connectionId
  ownerId : Bytes.Plain binding.ownerId
  provider : Bytes.Plain binding.provider
  credentialKind : Bytes.Plain binding.credentialKind

theorem SealBinding.Plain.clean (plain : binding.Plain) :
    ∀ field ∈ [utf8 binding.connectionId, utf8 binding.ownerId, utf8 binding.provider,
      utf8 binding.credentialKind], 0 ∉ field := by
  intro field member
  simp only [List.mem_cons, List.not_mem_nil, or_false] at member
  rcases member with rfl | rfl | rfl | rfl
  · exact plain.connectionId.clean
  · exact plain.ownerId.clean
  · exact plain.provider.clean
  · exact plain.credentialKind.clean

/-- The associated data tells bindings without a NUL apart. -/
theorem aad_inj (plain : binding.Plain) (plain' : binding'.Plain) :
    binding.aad = binding'.aad ↔ binding = binding' := by
  constructor
  · intro same
    have fields := List.append_cancel_left same
    obtain ⟨texts, numbers⟩ := ended_inj (by rfl) plain.clean plain'.clean fields
    have bound (n : UInt64) : n.toNat < 256 ^ 8 := n.toNat_lt
    obtain ⟨generation, versions⟩ := beBytes_append_inj (bound _) (bound _) numbers
    have version := beBytes_inj (bound _) (bound _) versions
    simp only [List.cons.injEq, utf8_inj, and_true] at texts
    obtain ⟨connectionId, ownerId, provider, credentialKind⟩ := texts
    cases binding
    cases binding'
    simp only [SealBinding.mk.injEq]
    exact ⟨connectionId, ownerId, provider, UInt64.toNat.inj generation, UInt64.toNat.inj version,
      credentialKind⟩
  · exact fun same => congrArg SealBinding.aad same

end Bindings

section Seals

variable {cipher : Cipher} {vault vault' : VaultKey} {binding binding' : SealBinding}
variable {secret : List UInt8} {draws : SealDraws} {sealed : SealedSecret}

/-- What a sealed secret is made of. -/
structure Envelope (cipher : Cipher) (vault : VaultKey) (binding : SealBinding) (secret : List UInt8)
    (sealed : SealedSecret) (dataKey nonce ciphertext keyNonce wrappedKey : List UInt8) : Prop where
  dataKey_length : dataKey.length = 32
  nonce_length : nonce.length = 12
  keyNonce_length : keyNonce.length = 12
  encrypts : cipher.encrypt dataKey nonce binding.aad secret = some ciphertext
  wraps : cipher.encrypt vault.key keyNonce binding.aad dataKey = some wrappedKey
  stored : sealed = { keyId := vault.id, keyNonce := Text.hexEncode keyNonce
                      wrappedKey := Text.hexEncode wrappedKey, nonce := Text.hexEncode nonce
                      ciphertext := Text.hexEncode ciphertext }

theorem encrypt_ok {key aad plaintext nonce ciphertext : List UInt8} {drawn : Option (Vector UInt8 12)}
    (made : encrypt cipher key aad plaintext drawn = .ok (nonce, ciphertext)) :
    nonce.length = 12 ∧ cipher.encrypt key nonce aad plaintext = some ciphertext := by
  unfold encrypt at made
  cases drawn with
  | none => cases made
  | some drawn =>
    dsimp only at made
    split at made
    · cases made
    · next text encrypted =>
      cases made
      exact ⟨by simp, encrypted⟩

theorem sealSecret_ok (made : vault.sealSecret cipher binding secret draws = .ok sealed) :
    ∃ dataKey nonce ciphertext keyNonce wrappedKey,
      Envelope cipher vault binding secret sealed dataKey nonce ciphertext keyNonce wrappedKey := by
  unfold VaultKey.sealSecret at made
  cases drawn : draws.dataKey with
  | none =>
    rw [drawn] at made
    cases made
  | some dataKey =>
    rw [drawn] at made
    have long : dataKey.toList.length = 32 := by simp
    have taken : keyFrom dataKey.toList = .ok dataKey.toList := if_pos long
    change (keyFrom dataKey.toList >>= fun dataKey' => encrypt cipher dataKey' binding.aad secret draws.nonce >>=
      _) = _ at made
    rw [taken] at made
    change (encrypt cipher dataKey.toList binding.aad secret draws.nonce >>= _) = _ at made
    cases first : encrypt cipher dataKey.toList binding.aad secret draws.nonce with
    | error error =>
      rw [first] at made
      cases made
    | ok text =>
      obtain ⟨nonce, ciphertext⟩ := text
      rw [first] at made
      change (encrypt cipher vault.key binding.aad dataKey.toList draws.keyNonce >>= _) = _ at made
      cases second : encrypt cipher vault.key binding.aad dataKey.toList draws.keyNonce with
      | error error =>
        rw [second] at made
        cases made
      | ok wrapped =>
        obtain ⟨keyNonce, wrappedKey⟩ := wrapped
        rw [second] at made
        obtain ⟨nonceLength, encrypted⟩ := encrypt_ok first
        obtain ⟨keyNonceLength, wraps⟩ := encrypt_ok second
        exact ⟨_, _, _, _, _, long, nonceLength, keyNonceLength, encrypted, wraps, (Except.ok.inj made).symm⟩

theorem decrypt_hex {key aad nonce ciphertext : List UInt8} (long : nonce.length = 12) :
    decrypt cipher key aad (Text.hexEncode nonce) (Text.hexEncode ciphertext) =
      match cipher.decrypt key nonce aad ciphertext with
      | some plain => .ok plain
      | none => .error tampered := by
  unfold decrypt
  rw [hexDecode_hexEncode, hexDecode_hexEncode, Option.filter_some, if_pos (decide_eq_true long)]

/-- In its own row a secret opens as it was sealed. -/
theorem openSecret_own (authentic : cipher.Authentic)
    (made : vault.sealSecret cipher binding secret draws = .ok sealed) :
    vault.openSecret cipher binding sealed = .ok secret := by
  obtain ⟨dataKey, nonce, ciphertext, keyNonce, wrappedKey, envelope⟩ := sealSecret_ok made
  obtain ⟨long, nonceLength, keyNonceLength, encrypted, wraps, rfl⟩ := envelope
  unfold VaultKey.openSecret
  dsimp only
  rw [if_neg (not_not.mpr rfl), decrypt_hex keyNonceLength, authentic.opens wraps]
  show (keyFrom dataKey >>= fun dataKey' => decrypt cipher dataKey' binding.aad _ _) = _
  rw [keyFrom, if_pos long]
  show decrypt cipher dataKey binding.aad _ _ = _
  rw [decrypt_hex nonceLength, authentic.opens encrypted]

/-- In any other row it does not open, whatever the vault key. -/
theorem openSecret_other (authentic : cipher.Authentic) (plain : binding.Plain) (plain' : binding'.Plain)
    (made : vault.sealSecret cipher binding secret draws = .ok sealed) (other : binding' ≠ binding) :
    ∃ error, vault'.openSecret cipher binding' sealed = .error error := by
  obtain ⟨dataKey, nonce, ciphertext, keyNonce, wrappedKey, envelope⟩ := sealSecret_ok made
  obtain ⟨-, -, keyNonceLength, -, wraps, rfl⟩ := envelope
  have apart : binding'.aad ≠ binding.aad := fun same => other ((aad_inj plain' plain).mp same)
  unfold VaultKey.openSecret
  dsimp only
  by_cases known : vault.id = vault'.id
  · rw [if_neg (not_not.mpr known), decrypt_hex keyNonceLength, authentic.refused wraps apart]
    exact ⟨tampered, rfl⟩
  · rw [if_pos known]
    exact ⟨_, rfl⟩

end Seals

end Jeryu.Vault
