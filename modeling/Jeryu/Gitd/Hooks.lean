import Jeryu.Gitd.Refs

namespace Jeryu.Gitd

open KeyedMap Text

def validateObjectId (oid : String) (line : Nat) (field : String) : Except GitdError Unit :=
  if len oid = 40 && all oid isAsciiHexdigit then .ok ()
  else .error (.invalidInput s!"pre-receive line {line} has invalid {field} oid")

def directPushDenied : GitdError :=
  .protectedRefDenied
    "direct pushes to refs/heads/main are blocked; open a pull request and merge through Jeryu"

/-- The guard of the pre-receive hook. -/
structure PreReceiveGuard where
  git : Git
  rules : List ProtectedRefRule

namespace PreReceiveGuard

/-- The change a `prior next ref` triplet asks for. An ancestry that cannot be asked for counts as
    forced. -/
def triplet (guard : PreReceiveGuard) (bare : BareRepo) (actor : String) (line : Nat)
    (oldOid newOid refName : String) : Except GitdError RefChange := do
  validateObjectId oldOid line "prior"
  validateObjectId newOid line "next"
  validateRefName guard.git refName
  let operation : RefOperation :=
    if isZeroOid newOid then .delete else if isZeroOid oldOid then .create else .update
  if refName = MAIN_REF then throw directPushDenied
  let ancestor := match guard.git.isAncestor bare oldOid newOid with
    | .ok ancestor => ancestor
    | .error _ => false
  let change : RefChange :=
    { actor, refName, oldOid, newOid, operation, force := operation = .update && !ancestor }
  ProtectedRefRule.evaluateAll guard.rules change
  return change

/-- The triplets of the lines from number `line` on. -/
def triplets (guard : PreReceiveGuard) (bare : BareRepo) (actor : String) :
    Nat → List String → Except GitdError (List RefChange)
  | _, [] => .ok []
  | line, text :: rest =>
    if trim text = "" then guard.triplets bare actor (line + 1) rest
    else match splitWhitespace (trim text) with
      | [oldOid, newOid, refName] => do
        let change ← guard.triplet bare actor line oldOid newOid refName
        let changes ← guard.triplets bare actor (line + 1) rest
        return change :: changes
      | _ => .error (.invalidInput s!"pre-receive line {line} must be: <prior> <next> <ref>")

def evaluateLines (guard : PreReceiveGuard) (id : RepoId) (bare : BareRepo) (actor input : String) :
    Except GitdError (List RefChange) := do
  bare.ensureWritable id
  let changes ← guard.triplets bare actor 1 (lines input)
  guard.git.rejectOversizedRawBlobs bare
    ((changes.filter fun change => !isZeroOid change.newOid).map RefChange.newOid)
  return changes

end PreReceiveGuard

/-- A line `git` gives the hook. -/
def hookLine (oldOid newOid refName : String) : String :=
  oldOid ++ " " ++ newOid ++ " " ++ refName ++ "\n"

end Jeryu.Gitd
