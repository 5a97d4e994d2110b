import Jeryu.Gitd.Credentials
import Jeryu.Gitd.Lfs
import Jeryu.Gitd.Receive

/-!
The smart HTTP server, for requests in memory and for pushes that are streamed.
-/

namespace Jeryu.Gitd

open KeyedMap Text

/-- What the server reads off a JSON body. -/
structure Json where
  /-- The `operation` of an object, `none` for a body that is no JSON. -/
  operation : List UInt8 → Option (Option String)
  batchRequest : List UInt8 → Option LfsBatchRequest
  verifyRequest : List UInt8 → Option LfsVerifyRequest
  batchResponse : LfsBatchResponse → List UInt8

structure HttpResponse where
  status : Nat
  contentType : String
  body : List UInt8

def HttpResponse.lfs (body : List UInt8) : HttpResponse := ⟨200, "application/vnd.git-lfs+json", body⟩

def lfsErrorResponse (status : Nat) (message : String) : HttpResponse :=
  ⟨status, "application/vnd.git-lfs+json", message.toUTF8.toList⟩

/-- `registry` is what opening the registry answers. -/
structure SmartHttpServer where
  manager : RepoManager
  host : Host
  registry : Except GitdError AuthRegistry
  sha256Hex : List UInt8 → String
  json : Json
  lfsMaxObjectBytes : Nat

def parseRepoFromPath (path : String) : Except GitdError (String × String) :=
  let path := trimMatches path '/'
  match splitOn path '/' with
  | [owner, repo] => .ok (owner, repo)
  | [git, owner, repo] =>
    if git = "git" then .ok (owner, repo)
    else .error (.http s!"expected /owner/repo.git path, got /{path}")
  | _ => .error (.http s!"expected /owner/repo.git path, got /{path}")

def lfsObjectPathParts (path : String) : Except GitdError (String × String × String) := do
  let path := trimEndCopies path "/verify"
  match rsplitOnce path "/info/lfs/objects/" with
  | none => throw (.http s!"expected LFS object path, got {path}")
  | some (repoPath, oid) =>
    if oid = "batch" || oid = "" then throw (.http s!"expected LFS object oid, got {path}")
    let oid ← normalizeOid oid
    let (owner, repoName) ← parseRepoFromPath repoPath
    return (owner, repoName, oid)

def isLfsObjectTransferPath (path : String) : Bool :=
  let path := trimEndCopies path "/verify"
  contains path "/info/lfs/objects/" && !endsWith path "/info/lfs/objects/batch" &&
    !endsWith path "/info/lfs/objects/"

def isLfsVerifyPath (path : String) : Bool := endsWith path "/verify" && isLfsObjectTransferPath path

def absoluteUrl (request : HttpRequest) (path : String) : String :=
  match request.headers.lookup "host" with
  | none => path
  | some host =>
    if host = "" then path
    else (request.headers.lookup "x-forwarded-proto").getD "http" ++ "://" ++ host ++ path

def lfsObjectsUrl (request : HttpRequest) : String :=
  absoluteUrl request (trimEndCopies request.path "/batch")

def gitProtocolHeader (request : HttpRequest) : Except GitdError (Option String) :=
  match request.headers.lookup "git-protocol" with
  | none => .ok none
  | some value =>
    if value = "version=2" then .ok (some value)
    else .error (.protocol "unsupported Git-Protocol header")

def packServiceOf (request : HttpRequest) : Option PackService :=
  if request.method ≠ "POST" then none
  else if endsWith request.path "/git-upload-pack" then some .uploadPack
  else if endsWith request.path "/git-receive-pack" then some .receivePack
  else none

def failing {α : Type} (answer : Except GitdError α) : Except Failure α := answer.mapError Failure.error

namespace SmartHttpServer

variable (server : SmartHttpServer) (disk : Disk) (request : HttpRequest)

def lfsBatchIsWrite : Except GitdError Bool :=
  match server.json.operation request.body with
  | none => .error (.lfs "invalid LFS batch JSON")
  | some none => .error (.lfs "missing LFS batch operation")
  | some (some operation) =>
    if operation = "upload" then .ok true
    else if operation = "download" then .ok false
    else .error (.lfs s!"unsupported LFS batch operation: {operation}")

/-- The repository a path names, for a peer that may read it or write to it. -/
def served (owner repoName : String) (write : Bool) : Except Failure (Repository × BareRepo) := do
  let id ← failing (server.manager.canonicalParts disk owner repoName)
  authorize server.sha256Hex server.registry request id.owner write
  let repo ← failing (server.manager.opened disk id)
  match disk.lookup repo.place with
  | none => throw (.error (RepoManager.notFound repo.place))
  | some bare => return (repo, bare)

def infoRefs : Except Failure HttpResponse := do
  match request.query.lookup "service" with
  | none => throw (.error (.http "missing service query parameter"))
  | some name =>
    match PackService.parse name with
    | none => throw (.error (.http s!"unsupported service: {name}"))
    | some service =>
      let (owner, repoName) ← failing (parseRepoFromPath (trimEndCopies request.path "/info/refs"))
      let (_, bare) ← server.served disk request owner repoName service.isWrite
      let protocol ← failing (gitProtocolHeader request)
      let refs ← failing (server.host.advertises bare service protocol)
      return ⟨200, s!"application/x-{service.httpName}-advertisement", refs⟩

/-- The repository of a pack RPC, with its mark looked at and the commands of a push. -/
def rpcChecked (service : PackService) :
    Except Failure (Repository × BareRepo × Option String) := do
  let (owner, repoName) ← failing (parseRepoFromPath (trimEndCopies request.path ("/" ++ service.httpName)))
  let (repo, bare) ← server.served disk request owner repoName service.isWrite
  if service = .receivePack then
    failing (bare.ensureWritable repo.id)
    failing (ensureReceivePackPolicy request.body)
  let protocol ← failing (gitProtocolHeader request)
  return (repo, bare, protocol)

def rpc (service : PackService) : Except Failure HttpResponse × Disk :=
  match server.rpcChecked disk request service with
  | .error failure => (.error failure, disk)
  | .ok (repo, bare, protocol) =>
    let (answer, disk) := server.host.run disk repo.place service bare request.body protocol
    (failing (answer.map fun body => ⟨200, s!"application/x-{service.httpName}-result", body⟩), disk)

def lfsBatch : Except Failure HttpResponse := do
  let (owner, repoName) ← failing (parseRepoFromPath (trimEndCopies request.path "/info/lfs/objects/batch"))
  let write ← failing (server.lfsBatchIsWrite request)
  let (repo, bare) ← server.served disk request owner repoName write
  if write then failing (bare.ensureWritable repo.id)
  match server.json.batchRequest request.body with
  | none => throw (.error (.lfs "invalid LFS batch JSON"))
  | some batch =>
    let response ← failing (bare.batchResponseFor batch (lfsObjectsUrl request)
      (request.headers.lookup "authorization") server.lfsMaxObjectBytes)
    return .lfs (server.json.batchResponse response)

/-- The repository of an upload and its object; the mark is not looked at. -/
def lfsUploadChecked : Except Failure (Repository × BareRepo × String) := do
  let (owner, repoName, oid) ← failing (lfsObjectPathParts request.path)
  let (repo, bare) ← server.served disk request owner repoName true
  return (repo, bare, oid)

def lfsUploadStream (expectedSize : Option Nat) : Except Failure HttpResponse × Disk :=
  match server.lfsUploadChecked disk request with
  | .error failure => (.error failure, disk)
  | .ok (repo, bare, oid) =>
    match bare.putReaderWithLimit server.sha256Hex oid expectedSize server.lfsMaxObjectBytes request.body with
    | .error error => (.error (.error error), disk)
    | .ok (bare, _) => (.ok (.lfs "{}".toUTF8.toList), disk.insert repo.place bare)

def lfsDownload : Except Failure HttpResponse := do
  let (owner, repoName, oid) ← failing (lfsObjectPathParts request.path)
  let (_, bare) ← server.served disk request owner repoName false
  match ← failing (bare.lfsGet oid) with
  | none => return lfsErrorResponse 404 "object not found"
  | some bytes => return ⟨200, "application/octet-stream", bytes⟩

def lfsVerify : Except Failure HttpResponse := do
  let (owner, repoName, oid) ← failing (lfsObjectPathParts request.path)
  let (_, bare) ← server.served disk request owner repoName true
  match server.json.verifyRequest request.body with
  | none => throw (.error (.lfs "invalid LFS verify JSON"))
  | some verify =>
    let bodyOid ← failing (normalizeOid verify.oid)
    if bodyOid ≠ oid then return lfsErrorResponse 422 "verify oid does not match transfer URL"
    failing (bare.lfsVerify oid verify.size)
    return .lfs "{}".toUTF8.toList

def lfsLocksVerify : Except Failure HttpResponse := do
  let (owner, repoName) ← failing (parseRepoFromPath (trimEndCopies request.path "/info/lfs/locks/verify"))
  let _ ← server.served disk request owner repoName true
  return .lfs "\x7b\"ours\":[],\"theirs\":[]\x7d".toUTF8.toList

/-- What reading a prelude record by record comes to: where it ends, or how much more it takes. -/
inductive PreludeState where
  | complete (length : Nat)
  | need (bytes : Nat)

/-- The state at an offset, looked for from the offset on; a record takes four bytes at least. -/
def receivePackPreludeState (input : List UInt8) : Nat → Nat → Except GitdError (PreludeState × Nat)
  | 0, offset => .ok (.need 4, offset)
  | fuel + 1, offset => do
    let remaining := input.length - offset
    if remaining < 4 then return (.need (4 - remaining), offset)
    let length ← pktLength ((input.drop offset).take 4)
    if length = 0 then return (.complete (offset + 4), offset)
    if length = 1 || length = 2 then return ← receivePackPreludeState input fuel (offset + 4)
    if length = 3 then throw (.protocol "reserved pkt-line length 0003")
    if remaining < length then return (.need (length - remaining), offset)
    receivePackPreludeState input fuel (offset + length)

def MAX_RECEIVE_PACK_PRELUDE_BYTES : Nat := 1024 * 1024

/-- The prelude of a push whose `body` arrives bit by bit, with `arrived` of its bytes read. -/
def readReceivePackPrefix (body : List UInt8) (contentLength : Nat) : Nat → Nat → Nat → Except GitdError Nat
  | 0, arrived, _ => .ok arrived
  | fuel + 1, arrived, offset => do
    let (state, offset) ← receivePackPreludeState (body.take arrived) (arrived + 1) offset
    match state with
    | .complete length =>
      if MAX_RECEIVE_PACK_PRELUDE_BYTES < length then
        throw (.protocol "receive-pack command prelude exceeds limit")
      ensureReceivePackPolicy (body.take length)
      return arrived
    | .need needed =>
      let next := arrived + needed
      if MAX_RECEIVE_PACK_PRELUDE_BYTES < next then
        throw (.protocol "receive-pack command prelude exceeds limit")
      if contentLength < next || body.length < next then
        throw (.protocol "receive-pack command prelude is truncated")
      readReceivePackPrefix body contentLength fuel next offset

def writeContinueIfRequested : Except GitdError Unit :=
  match request.headers.lookup "expect" with
  | none => .ok ()
  | some expectation =>
    if eqIgnoreAsciiCase expectation "100-continue" then .ok ()
    else .error (.http "unsupported Expect header for Git RPC")

/-- A push or a fetch whose body is streamed; `arrived` of its bytes came with the head. -/
def prepareStreamingRpc (service : PackService) (contentLength arrived : Nat) :
    Except Failure (Repository × BareRepo × Option String) := do
  let (owner, repoName) ← failing (parseRepoFromPath (trimEndCopies request.path ("/" ++ service.httpName)))
  let (repo, bare) ← server.served disk request owner repoName service.isWrite
  if service.isWrite then failing (bare.ensureWritable repo.id)
  failing (writeContinueIfRequested request)
  if service = .receivePack then
    if contentLength < arrived then
      throw (.error (.protocol "receive-pack prefix exceeds Content-Length"))
    let _ ← failing (readReceivePackPrefix request.body contentLength (request.body.length + 1) arrived 0)
  let protocol ← failing (gitProtocolHeader request)
  return (repo, bare, protocol)

def streamRpc (service : PackService) (contentLength arrived : Nat) : Except Failure HttpResponse × Disk :=
  match server.prepareStreamingRpc disk request service contentLength arrived with
  | .error failure => (.error failure, disk)
  | .ok (repo, bare, protocol) =>
    let (answer, disk) := server.host.run disk repo.place service bare (request.body.take contentLength) protocol
    (failing (answer.map fun body => ⟨200, s!"application/x-{service.httpName}-result", body⟩), disk)

/-- The seam for an edge that terminates HTTP itself. -/
def packRpc (contentLength : Nat) : Except Failure HttpResponse × Disk :=
  match packServiceOf request with
  | none => (.error (.error (.http s!"no pack RPC for {request.method} {request.path}")), disk)
  | some service => server.streamRpc disk request service contentLength 0

/-- A request that is in memory whole. -/
def routeInner : Except Failure HttpResponse × Disk :=
  let method := request.method
  let path := request.path
  if method = "GET" && endsWith path "/info/refs" then (server.infoRefs disk request, disk)
  else if method = "POST" && endsWith path "/git-upload-pack" then server.rpc disk request .uploadPack
  else if method = "POST" && endsWith path "/git-receive-pack" then server.rpc disk request .receivePack
  else if method = "POST" && endsWith path "/info/lfs/objects/batch" then (server.lfsBatch disk request, disk)
  else if method = "POST" && endsWith path "/info/lfs/locks/verify" then
    (server.lfsLocksVerify disk request, disk)
  else if method = "POST" && isLfsVerifyPath path then (server.lfsVerify disk request, disk)
  else if method = "GET" && isLfsObjectTransferPath path then (server.lfsDownload disk request, disk)
  else if method = "PUT" && isLfsObjectTransferPath path then
    server.lfsUploadStream disk request (some request.body.length)
  else (.error (.error (.http s!"no route for {method} {path}")), disk)

/-- A request off a socket, where `request.body` is all that the peer sends after the head. -/
def handleStream (contentLength : Option Nat) (arrived : Nat) : Except Failure HttpResponse × Disk :=
  match packServiceOf request with
  | some service =>
    match contentLength with
    | none => (.ok ⟨411, "text/plain; charset=utf-8",
        "Git smart HTTP RPC requires Content-Length\n".toUTF8.toList⟩, disk)
    | some contentLength => server.streamRpc disk request service contentLength (min arrived contentLength)
  | none =>
    if request.method = "GET" && isLfsObjectTransferPath request.path then (server.lfsDownload disk request, disk)
    else if request.method = "PUT" && isLfsObjectTransferPath request.path then
      match contentLength with
      | none => (.ok (lfsErrorResponse 411 "LFS basic uploads require Content-Length"), disk)
      | some contentLength =>
        let request := { request with body := request.body.take contentLength }
        server.lfsUploadStream disk request (some contentLength)
    else
      let request := { request with body := request.body.take (contentLength.getD 0) }
      server.routeInner disk request

end SmartHttpServer

end Jeryu.Gitd
