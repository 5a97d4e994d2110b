import Jeryu.Gitd.Ssh

/-!
The credentials of the Git server: how they are made, and the file that the handles of several
processes share.
-/

namespace Jeryu.Gitd

open KeyedMap Text

structure Pat where
  id : String
  secret : String
  deriving DecidableEq

/-- What the client presents. -/
def Pat.token (pat : Pat) : String := "jpat_" ++ pat.id ++ "_" ++ pat.secret

def hexDigit (n : Nat) : Char := "0123456789abcdef".toList.getD n '0'

def hexByte (byte : UInt8) : List Char := [hexDigit (byte.toNat / 16), hexDigit (byte.toNat % 16)]

section Digest

variable (sha256 : List UInt8 → List UInt8)

def sha256Hex (input : List UInt8) : String := String.ofList ((sha256 input).flatMap hexByte)

/-- `bytes` are what the operating system gives. -/
def randomToken (bytes : List UInt8) : String := sha256Hex sha256 bytes

end Digest

def base64Digit (value : UInt32) : Char :=
  Char.ofNat (base64Table.getD (value &&& 0x3f).toNat 0).toNat

/-- Eight bits a byte, from the bits not yet given out. -/
def base64EncodeStep (bits : UInt32) (nbits : Nat) : List UInt8 → List Char
  | [] => if nbits > 0 then [base64Digit (bits <<< UInt32.ofNat (6 - nbits))] else []
  | byte :: rest =>
    let bits := (bits <<< 8) ||| UInt32.ofNat byte.toNat
    ((List.range ((nbits + 8) / 6)).map fun n =>
      base64Digit (bits >>> UInt32.ofNat (nbits + 8 - 6 * (n + 1)))) ++
      base64EncodeStep bits ((nbits + 8) % 6) rest

def base64EncodeNopad (input : List UInt8) : String := String.ofList (base64EncodeStep 0 0 input)

/-- The key itself, in a line of `authorized_keys`. -/
def keyBlob (pubkey : String) : String :=
  ((splitWhitespace pubkey).find? fun tok =>
    !startsWith tok "ssh-" && !startsWith tok "ecdsa-" && !startsWith tok "sk-").getD pubkey

def sshFingerprint (sha256 : List UInt8 → List UInt8) (pubkey : String) : Except GitdError String :=
  if trim pubkey = "" then .error (.invalidInput "empty ssh public key")
  else match base64Decode (keyBlob (trim pubkey)) with
    | none => .error (.invalidInput "invalid base64 in ssh public key")
    | some decoded => .ok ("SHA256:" ++ base64EncodeNopad (sha256 decoded))

namespace AuthRegistry

def empty : AuthRegistry := ⟨[], sorted_nil, ∅⟩

def insertPat (registry : AuthRegistry) (id : String) (record : PatRecord) : AuthRegistry where
  pats := registry.pats.filter (·.1 < id) ++ (id, record) :: registry.pats.filter (id < ·.1)
  sorted := by
    refine List.pairwise_append.mpr ⟨registry.sorted.filter _, ?_, ?_⟩
    · refine List.pairwise_cons.mpr ⟨?_, registry.sorted.filter _⟩
      intro entry member
      exact of_decide_eq_true (List.mem_filter.mp member).2
    · intro first low second high
      have below : first.1 < id := of_decide_eq_true (List.mem_filter.mp low).2
      rcases List.mem_cons.mp high with rfl | high
      · exact below
      · exact below.trans (of_decide_eq_true (List.mem_filter.mp high).2)
  sshKeys := registry.sshKeys

def insertSshKey (registry : AuthRegistry) (fingerprint : String) (principal : Principal) :
    AuthRegistry where
  pats := registry.pats
  sorted := registry.sorted
  sshKeys := registry.sshKeys.insert fingerprint principal

end AuthRegistry

/-- A call of `mint_pat` or `register_ssh_key` that got past its checks. -/
inductive Grant where
  | pat (pat : Pat) (owner : String) (scopes : List String)
  | sshKey (fingerprint owner : String)
  deriving DecidableEq

def Grant.patId : Grant → Option String
  | .pat minted _ _ => some minted.id
  | .sshKey _ _ => none

def Grant.secret : Grant → Option String
  | .pat minted _ _ => some minted.secret
  | .sshKey _ _ => none

def Grant.fingerprint : Grant → Option String
  | .pat _ _ _ => none
  | .sshKey fingerprint _ => some fingerprint

variable (sha256 : List UInt8 → List UInt8)

/-- The record of a call. -/
def AuthRegistry.enter (registry : AuthRegistry) : Grant → AuthRegistry
  | .pat pat owner scopes =>
    registry.insertPat pat.id ⟨sha256Hex sha256 pat.secret.toUTF8.toList, ⟨owner, scopes⟩⟩
  | .sshKey fingerprint owner =>
    registry.insertSshKey fingerprint ⟨owner, [SCOPE_READ, SCOPE_WRITE]⟩

/-- The first 16 characters of a random token, drawn up to eight times. -/
def AuthRegistry.freshId (registry : AuthRegistry) (draws : Fin 8 → List UInt8) :
    Except GitdError String :=
  let ids := (List.ofFn draws).map fun bytes =>
    String.ofList ((randomToken sha256 bytes).toList.take 16)
  match ids.find? fun id => (registry.pat id).isNone with
  | some id => .ok id
  | none => .error (.invalidInput "could not allocate a unique token id")

/-- A registry, and the calls whose records it holds, oldest first. -/
structure Copy where
  grants : List Grant
  registry : AuthRegistry
  entered : registry = grants.foldl (AuthRegistry.enter sha256) .empty

namespace Copy

variable {sha256} (copy : Copy sha256)

def empty : Copy sha256 := ⟨[], .empty, rfl⟩

def enter (grant : Grant) : Copy sha256 where
  grants := copy.grants ++ [grant]
  registry := copy.registry.enter sha256 grant
  entered := by rw [List.foldl_append, ← copy.entered]; rfl

/-- `mint_pat` up to the flush. -/
def mintPat (owner : String) (scopes : List String) (draws : Fin 8 → List UInt8)
    (secret : List UInt8) : Except GitdError (Pat × Copy sha256) := do
  let id ← copy.registry.freshId sha256 draws
  let pat := ⟨id, randomToken sha256 secret⟩
  return (pat, copy.enter (.pat pat owner scopes))

/-- `register_ssh_key` up to the flush. -/
def registerSshKey (owner pubkey : String) : Except GitdError (String × Copy sha256) := do
  let fingerprint ← sshFingerprint sha256 pubkey
  return (fingerprint, copy.enter (.sshKey fingerprint owner))

end Copy

/-- A call that has changed its handle and is at its `flush`. -/
structure Flush where
  grant : Grant
  written : Bool

structure Handle where
  copy : Copy sha256
  flush : Option Flush

inductive Content where
  | whole (copy : Copy sha256)
  | blank
  | torn

/-- A failed write leaves the old file, or part of the new one. -/
inductive WriteOutcome where
  | done
  | refused
  | cut (blank : Bool)

structure Answer where
  handle : Nat
  grant : Grant
  ok : Bool
  deriving DecidableEq

/-- The file `auth/registry.json`, its temporary name, and the handles of the processes on it.
    `drawn` are the random bytes given out, `answers` the calls that have returned. -/
structure Registrars where
  stored : Option (Content sha256)
  temp : Option (Content sha256)
  handles : Nat → Option (Handle sha256)
  drawn : List (List UInt8)
  answers : List Answer

inductive RegistryEvent where
  | openRegistry (name : Nat)
  | mintPat (name : Nat) (owner : String) (scopes : List String) (draws : Fin 8 → List UInt8)
      (secret : List UInt8)
  | registerSshKey (name : Nat) (owner pubkey : String)
  | write (name : Nat) (outcome : WriteOutcome)
  | rename (name : Nat) (done : Bool)
  | close (name : Nat)

namespace Registrars

variable {sha256} (store : Registrars sha256)

def start : Registrars sha256 := ⟨none, none, fun _ => none, [], []⟩

/-- `AuthRegistry::open`. -/
def read : Except GitdError (Copy sha256) :=
  match store.stored with
  | none => .ok .empty
  | some (.whole copy) => .ok copy
  | some .blank => .ok .empty
  | some .torn => .error (.invalidInput "corrupt auth registry")

def set (name : Nat) (handle : Option (Handle sha256)) : Registrars sha256 :=
  { store with handles := Function.update store.handles name handle }

def answered (name : Nat) (copy : Copy sha256) (grant : Grant) (ok : Bool) : Registrars sha256 :=
  { store.set name (some ⟨copy, none⟩) with answers := store.answers ++ [⟨name, grant, ok⟩] }

/-- The random source does not repeat itself. -/
def Unseen (draws : Fin 8 → List UInt8) (secret : List UInt8) : Prop :=
  (secret :: List.ofFn draws).Nodup ∧ ∀ bytes ∈ secret :: List.ofFn draws, bytes ∉ store.drawn

instance (draws : Fin 8 → List UInt8) (secret : List UInt8) : Decidable (store.Unseen draws secret) :=
  inferInstanceAs (Decidable (_ ∧ _))

def beginMint (name : Nat) (copy : Copy sha256) (owner : String) (scopes : List String)
    (draws : Fin 8 → List UInt8) (secret : List UInt8) : Registrars sha256 :=
  let store := { store with drawn := secret :: List.ofFn draws ++ store.drawn }
  match copy.mintPat owner scopes draws secret with
  | .error _ => store
  | .ok (pat, copy) => store.set name (some ⟨copy, some ⟨.pat pat owner scopes, false⟩⟩)

def beginRegister (name : Nat) (copy : Copy sha256) (owner pubkey : String) : Registrars sha256 :=
  match copy.registerSshKey owner pubkey with
  | .error _ => store
  | .ok (fingerprint, copy) => store.set name (some ⟨copy, some ⟨.sshKey fingerprint owner, false⟩⟩)

/-- `fs::write` of the temporary file. -/
def writeTemp (name : Nat) (copy : Copy sha256) (grant : Grant) : WriteOutcome → Registrars sha256
  | .done => { store.set name (some ⟨copy, some ⟨grant, true⟩⟩) with temp := some (.whole copy) }
  | .refused => store.answered name copy grant false
  | .cut blank =>
    { store.answered name copy grant false with temp := some (if blank then .blank else .torn) }

/-- `fs::rename`, which also fails where the temporary file is gone. -/
def renameTemp (name : Nat) (copy : Copy sha256) (grant : Grant) (done : Bool) : Registrars sha256 :=
  match done, store.temp with
  | true, some content =>
    { store.answered name copy grant true with stored := some content, temp := none }
  | _, _ => store.answered name copy grant false

/-- `none` where the handle is not at this point of its calls. -/
def step : RegistryEvent → Option (Registrars sha256)
  | .openRegistry name =>
    match store.handles name with
    | some _ => none
    | none => match store.read with
      | .error _ => some store
      | .ok copy => some (store.set name (some ⟨copy, none⟩))
  | .mintPat name owner scopes draws secret =>
    match store.handles name with
    | some ⟨copy, none⟩ =>
      if store.Unseen draws secret then some (store.beginMint name copy owner scopes draws secret)
      else none
    | _ => none
  | .registerSshKey name owner pubkey =>
    match store.handles name with
    | some ⟨copy, none⟩ => some (store.beginRegister name copy owner pubkey)
    | _ => none
  | .write name outcome =>
    match store.handles name with
    | some ⟨copy, some ⟨grant, false⟩⟩ => some (store.writeTemp name copy grant outcome)
    | _ => none
  | .rename name done =>
    match store.handles name with
    | some ⟨copy, some ⟨grant, true⟩⟩ => some (store.renameTemp name copy grant done)
    | _ => none
  | .close name => some (store.set name none)

end Registrars

end Jeryu.Gitd
