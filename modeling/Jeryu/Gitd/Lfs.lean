import Jeryu.Gitd.Storage

/-!
The LFS objects of a bare repository.
-/

namespace Jeryu.Gitd

open KeyedMap Text

/-- An object id in its one spelling. -/
def normalizeOid (oid : String) : Except GitdError String :=
  if len oid = 64 && all oid isAsciiHexdigit then .ok (toAsciiLowercase oid)
  else .error (.lfs "LFS oid must be 64 lowercase/uppercase hex characters")

structure LfsVerifyRequest where
  oid : String
  size : Nat

structure LfsBatchObject where
  oid : String
  size : Nat

structure LfsBatchRequest where
  operation : String
  transfers : Option (List String)
  hashAlgo : Option String
  objects : List LfsBatchObject

structure LfsAction where
  href : String
  header : Option (String × String)

structure LfsObjectError where
  code : Nat
  message : String

structure LfsBatchObjectResponse where
  oid : String
  size : Nat
  authenticated : Bool
  actions : List (String × LfsAction)
  error : Option LfsObjectError

structure LfsBatchResponse where
  transfer : String
  hashAlgo : String
  objects : List LfsBatchObjectResponse

def LfsBatchObjectResponse.new (oid : String) (size : Nat) : LfsBatchObjectResponse :=
  ⟨oid, size, true, [], none⟩

def LfsBatchObjectResponse.withError (oid : String) (size code : Nat) (message : String) :
    LfsBatchObjectResponse :=
  ⟨oid, size, true, [], some ⟨code, message⟩⟩

def objectHref (objectsUrl oid : String) : String := trimEndMatches objectsUrl (· = '/') ++ "/" ++ oid

def authActionHeader (value : String) : String × String := ("Authorization", value)

namespace BareRepo

variable (bare : BareRepo)

/-- The object's bytes, once they have the digest and the size asked for. -/
def putReaderWithLimit (sha256Hex : List UInt8 → String) (oid : String) (expectedSize : Option Nat)
    (maxSize : Nat) (bytes : List UInt8) : Except GitdError (BareRepo × Nat) := do
  let oid ← normalizeOid oid
  let total := bytes.length
  let actual := sha256Hex bytes
  if expectedSize.any (fun size => maxSize < size) || maxSize < total then
    throw (.lfs s!"LFS object {oid} is larger than the configured limit of {maxSize} bytes")
  else if expectedSize.any (fun size => size ≠ total) then
    throw (.lfs s!"size mismatch for {oid}: expected {expectedSize.getD total}, got {total}")
  else if actual ≠ oid then
    throw (.lfs s!"sha256 mismatch: expected {oid}, got {actual}")
  else if bare.lfsObjects.lookup oid ≠ none then return (bare, total)
  else return ({ bare with lfsObjects := bare.lfsObjects.insert oid bytes }, total)

def lfsGet (oid : String) : Except GitdError (Option (List UInt8)) := do
  return bare.lfsObjects.lookup (← normalizeOid oid)

def lfsSize (oid : String) : Except GitdError (Option Nat) := do
  return (← bare.lfsGet oid).map List.length

def lfsVerify (oid : String) (expectedSize : Nat) : Except GitdError Unit := do
  let oid ← normalizeOid oid
  match ← bare.lfsSize oid with
  | none => throw (.lfs s!"LFS object not found: {oid}")
  | some actualSize =>
    if actualSize ≠ expectedSize then
      throw (.lfs s!"size mismatch for {oid}: expected {expectedSize}, got {actualSize}")

def uploadBatchObject (oid : String) (size : Nat) (objectsUrl : String)
    (header : Option (String × String)) : Except GitdError LfsBatchObjectResponse := do
  match ← bare.lfsSize oid with
  | some actualSize =>
    if actualSize ≠ size then
      return .withError oid size 422 "stored object size does not match requested size"
    return .new oid size
  | none =>
    let objectUrl := objectHref objectsUrl oid
    return { LfsBatchObjectResponse.new oid size with
      actions := [("upload", ⟨objectUrl, header⟩), ("verify", ⟨objectUrl ++ "/verify", header⟩)] }

def downloadBatchObject (oid : String) (size : Nat) (objectsUrl : String)
    (header : Option (String × String)) : Except GitdError LfsBatchObjectResponse := do
  match ← bare.lfsSize oid with
  | none => return .withError oid size 404 "object not found"
  | some actualSize =>
    if actualSize ≠ size then
      return .withError oid size 422 "stored object size does not match requested size"
    return { LfsBatchObjectResponse.new oid size with
      actions := [("download", ⟨objectHref objectsUrl oid, header⟩)] }

def batchObject (upload : Bool) (objectsUrl : String) (header : Option (String × String))
    (maxObjectBytes : Nat) (object : LfsBatchObject) : Except GitdError LfsBatchObjectResponse := do
  let oid ← normalizeOid object.oid
  if maxObjectBytes < object.size then
    return .withError oid object.size 413 "object exceeds the configured LFS size limit"
  if upload then bare.uploadBatchObject oid object.size objectsUrl header
  else bare.downloadBatchObject oid object.size objectsUrl header

def batchResponseFor (request : LfsBatchRequest) (objectsUrl : String) (authHeader : Option String)
    (maxObjectBytes : Nat) : Except GitdError LfsBatchResponse := do
  if request.hashAlgo.getD "sha256" ≠ "sha256" then
    throw (.lfs "unsupported LFS hash algorithm; only sha256 is supported")
  if request.transfers.any fun transfers => !transfers.isEmpty && !transfers.contains "basic" then
    throw (.lfs "unsupported LFS transfer adapter; only basic is supported")
  let upload ←
    if request.operation = "upload" then pure true
    else if request.operation = "download" then pure false
    else throw (.lfs s!"unsupported LFS batch operation: {request.operation}")
  let objects ← request.objects.mapM
    (bare.batchObject upload objectsUrl (authHeader.map authActionHeader) maxObjectBytes)
  return ⟨"basic", "sha256", objects⟩

end BareRepo

end Jeryu.Gitd
