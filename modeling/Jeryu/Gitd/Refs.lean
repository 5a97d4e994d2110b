import Jeryu.Gitd.Model

namespace Jeryu.Gitd

open KeyedMap Text

structure RepoId where
  owner : String
  name : String
  deriving DecidableEq

def RepoId.display (id : RepoId) : String := id.owner ++ "/" ++ id.name

inductive RefTarget where
  | oid (oid : String)
  | symbolic (target : String)
  deriving DecidableEq

/-- What a bare repository holds: its refs, its objects, the files of its LFS store, the archive
    mark, and whether the pre-receive hook is installed. -/
structure BareRepo where
  refs : HashMap String RefTarget
  objects : List String
  lfsObjects : HashMap String (List UInt8)
  archived : Bool
  preReceive : Bool

/-- What is asked of `git`, apart from the refs themselves. -/
structure Git where
  checkRefFormat : String → Bool
  isAncestor : BareRepo → String → String → Except GitdError Bool
  verifyCommit : BareRepo → String → Except GitdError Unit
  mergeTree : BareRepo → String → String → Except GitdError String
  commitTree : BareRepo → String → String → String → String → Except GitdError String
  rejectOversizedRawBlobs : BareRepo → List String → Except GitdError Unit
  /-- Whether the object may be what the ref points at. -/
  pointsAt : BareRepo → String → String → Bool

def ZERO_OID : String := "0000000000000000000000000000000000000000"

def MAIN_REF : String := "refs/heads/main"

def isZeroOid (oid : String) : Bool := len oid = 40 && all oid (· = '0')

/-- As many names `git` looks at in a chain of symbolic refs. -/
def SYMREF_MAXDEPTH : Nat := 5

namespace BareRepo

def isSymbolic (bare : BareRepo) (name : String) : Bool :=
  match bare.refs.lookup name with
  | some (.symbolic _) => true
  | _ => false

/-- The direct ref a name comes to, looking at no more than so many names. -/
def follow (bare : BareRepo) : Nat → String → Option String
  | 0, _ => none
  | depth + 1, name =>
    match bare.refs.lookup name with
    | some (.symbolic target) => bare.follow depth target
    | _ => some name

def finalRef (bare : BareRepo) (name : String) : Option String := bare.follow SYMREF_MAXDEPTH name

/-- `git symbolic-ref --quiet`, which follows a chain to its end. -/
def symbolicRef (bare : BareRepo) (name : String) : Option String :=
  if bare.isSymbolic name then bare.finalRef name else none

def valueAt (bare : BareRepo) (name : String) : Option String :=
  match bare.refs.lookup name with
  | some (.oid oid) => some oid
  | _ => none

/-- A direct ref set to an object, or deleted. -/
def point (bare : BareRepo) (name oid : String) : BareRepo :=
  { bare with
    refs := if isZeroOid oid then bare.refs.erase name else bare.refs.insert name (.oid oid) }

/-- `git update-ref <name> <new> <old>`, on the direct ref the name comes to; the zero `old` asks
    for an absent one. -/
def updateRef (git : Git) (bare : BareRepo) (name newOid oldOid : String) :
    Except GitdError BareRepo :=
  match bare.finalRef name with
  | none => .error (.gitCommandFailed "git update-ref")
  | some final =>
    if (bare.valueAt final).getD ZERO_OID = oldOid && (isZeroOid newOid || git.pointsAt bare final newOid)
    then .ok (bare.point final newOid)
    else .error (.gitCommandFailed "git update-ref")

def ensureWritable (bare : BareRepo) (id : RepoId) : Except GitdError Unit :=
  if bare.archived then .error (.repositoryArchived id.display) else .ok ()

end BareRepo

def validateRefName (git : Git) (name : String) : Except GitdError Unit :=
  if contains name "\x00" || startsWith name "-" then .error (.invalidInput "invalid ref name")
  else if !startsWith name "refs/" || (name.toList.splitOnP (· = '/')).length < 3 then
    .error (.invalidInput s!"ref name must be fully qualified as refs/<kind>/<name>: {name}")
  else if git.checkRefFormat name then .ok ()
  else .error (.gitCommandFailed "git check-ref-format")

inductive RefOperation where
  | create
  | update
  | delete
  deriving DecidableEq

structure RefChange where
  actor : String
  refName : String
  oldOid : String
  newOid : String
  operation : RefOperation
  force : Bool
  deriving DecidableEq

structure ProtectedRefRule where
  pattern : String
  denyDelete : Bool
  denyForce : Bool
  bypassActors : List String
  deriving DecidableEq

def matchesPattern (pattern value : String) : Bool :=
  pattern = value ||
    match stripSuffix pattern "*" with
    | some literal => startsWith value literal
    | none => false

namespace ProtectedRefRule

def defaultPhase1Rules : List ProtectedRefRule :=
  [{ pattern := "refs/heads/main", denyDelete := true, denyForce := true
     bypassActors := ["system:mirror"] },
   { pattern := "refs/tags/*", denyDelete := true, denyForce := true, bypassActors := [] }]

def evaluate (rule : ProtectedRefRule) (change : RefChange) : Except GitdError Unit :=
  if !matchesPattern rule.pattern change.refName || rule.bypassActors.contains change.actor then .ok ()
  else if rule.denyDelete && change.operation = .delete then
    .error (.protectedRefDenied s!"{change.actor} cannot delete {change.refName}")
  else if rule.denyForce && change.force then
    .error (.protectedRefDenied s!"{change.actor} cannot force-update {change.refName}")
  else .ok ()

/-- Every rule, in order. -/
def evaluateAll : List ProtectedRefRule → RefChange → Except GitdError Unit
  | [], _ => .ok ()
  | rule :: rest, change => do
    rule.evaluate change
    evaluateAll rest change

end ProtectedRefRule

def MAX_SYMREF_DEPTH : Nat := 8

/-- `name` followed through symbolic refs, in at most `hops` hops, to a direct one. -/
def resolveFrom (git : Git) (bare : BareRepo) (asked : String) : Nat → String → Except GitdError String
  | 0, _ => .error (.invalidInput s!"symbolic ref {asked} does not resolve to a direct ref")
  | hops + 1, current =>
    match bare.symbolicRef current with
    | none => .ok current
    | some target =>
      if trim target = "" || trim target = current then .ok current
      else do
        validateRefName git (trim target)
        resolveFrom git bare asked hops (trim target)

def resolveSymbolicRef (git : Git) (bare : BareRepo) (name : String) : Except GitdError String :=
  resolveFrom git bare name MAX_SYMREF_DEPTH name

/-- Tags move by force only, and outside `refs/heads/` nothing else does. -/
def forceUpdate (git : Git) (bare : BareRepo) (name newOid : String) (oldOid : Option String)
    (operation : RefOperation) : Except GitdError Bool :=
  match oldOid with
  | none => .ok false
  | some oldOid =>
    if operation ≠ .update || isZeroOid oldOid || isZeroOid newOid then .ok false
    else if startsWith name "refs/tags/" then .ok true
    else if !startsWith name "refs/heads/" then .ok false
    else (git.isAncestor bare oldOid newOid).map not

/-- The ref service: a manager's `git` and its protected refs. -/
structure RefService where
  git : Git
  protectedRefs : List ProtectedRefRule

namespace RefService

/-- The change `update_ref` puts to the rules. -/
def change (service : RefService) (bare : BareRepo) (actor name newOid : String)
    (oldOid : Option String) : Except GitdError RefChange := do
  let operation : RefOperation :=
    if isZeroOid newOid then .delete else if oldOid.isSome then .update else .create
  let force ← forceUpdate service.git bare name newOid oldOid operation
  return { actor, refName := name, oldOid := oldOid.getD ZERO_OID, newOid, operation, force }

/-- `none` asks for an absent ref. -/
def updateRef (service : RefService) (id : RepoId) (bare : BareRepo) (actor name newOid : String)
    (oldOid : Option String) : Except GitdError BareRepo := do
  validateRefName service.git name
  bare.ensureWritable id
  let name ← resolveSymbolicRef service.git bare name
  let change ← service.change bare actor name newOid oldOid
  ProtectedRefRule.evaluateAll service.protectedRefs change
  bare.updateRef service.git name newOid (oldOid.getD ZERO_OID)

/-- The object the base moves to, and whether it is the head itself. -/
def merged (service : RefService) (bare : BareRepo) (baseOid headOid message : String)
    (fastForward : Bool) : Except GitdError (String × Bool) := do
  if fastForward then return (headOid, true)
  let tree ← service.git.mergeTree bare baseOid headOid
  let commit ← service.git.commitTree bare tree baseOid headOid message
  return (commit, false)

def mergePull (service : RefService) (id : RepoId) (bare : BareRepo)
    (actor baseRef baseOid headOid message : String) (requireFastForward : Bool) :
    Except GitdError (BareRepo × String × Bool) := do
  validateRefName service.git baseRef
  bare.ensureWritable id
  if isZeroOid baseOid || isZeroOid headOid then
    throw (.invalidInput "merge requires non-zero base and head oids")
  service.git.verifyCommit bare baseOid
  service.git.verifyCommit bare headOid
  let fastForward ← service.git.isAncestor bare baseOid headOid
  if requireFastForward && !fastForward then throw .nonFastForwardRequired
  let (mergeOid, fastForward) ← service.merged bare baseOid headOid message fastForward
  let bare := if fastForward then bare else { bare with objects := mergeOid :: bare.objects }
  let bare ← service.updateRef id bare actor baseRef mergeOid (some baseOid)
  return (bare, mergeOid, fastForward)

end RefService

end Jeryu.Gitd
