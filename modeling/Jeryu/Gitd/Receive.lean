import Jeryu.Gitd.Pack
import Jeryu.Gitd.Storage

/-!
A push as `git receive-pack` carries it out, with the pre-receive hook the server installs.
-/

namespace Jeryu.Gitd

open KeyedMap Text

inductive PackService where
  | uploadPack
  | receivePack
  deriving DecidableEq

namespace PackService

def httpName : PackService → String
  | .uploadPack => "git-upload-pack"
  | .receivePack => "git-receive-pack"

def isWrite (service : PackService) : Bool := service = .receivePack

def parse (service : String) : Option PackService :=
  if service = "git-upload-pack" then some .uploadPack
  else if service = "git-receive-pack" then some .receivePack
  else none

end PackService

/-- What `git receive-pack` makes of its input: the commands the hook gets to see, those that it
    carries out once the hook has passed, and the objects it takes out of quarantine then. -/
structure Received where
  commands : List ReceivePackCommand
  accepted : List ReceivePackCommand
  objects : List String

/-- The host of a server: its `git`, and `jeryu-gitd` if it is on the path of the hook. -/
structure Host where
  received : BareRepo → List UInt8 → Received
  /-- What a pack service prints. -/
  answers : BareRepo → PackService → List UInt8 → Option String → Except GitdError (List UInt8)
  advertises : BareRepo → PackService → Option String → Except GitdError (List UInt8)
  helper : Option PreReceiveGuard
  /-- `JERYU_ACTOR`, or `wire-client`. -/
  actor : String

/-- The fields of a record, as `awk` numbers them from one on. -/
def awkFields (record : String) : List String :=
  ((record.toList.splitOnP fun c => c = ' ' || c = '\t').filter fun field => !field.isEmpty).map String.ofList

/-- A direct push to the trunk. -/
def pushesMain (record : String) : Bool := (awkFields record)[2]? = some MAIN_REF

/-- A tag updated or deleted. -/
def movesTag (record : String) : Bool :=
  (awkFields record)[2]?.any (fun name => startsWith name "refs/tags/") &&
    (awkFields record)[0]? ≠ some ZERO_OID

/-- `jeryu-gitd pre-receive`, which opens the repository again by its name. -/
def preReceiveCommand (guard : PreReceiveGuard) (disk : Disk) (place : Place) (actor input : String) :
    Except GitdError (List RefChange) := do
  let repo ← (⟨none⟩ : RepoManager).openParts disk place.owner (withoutGit place.directory)
  match disk.lookup repo.place with
  | none => throw (RepoManager.notFound repo.place)
  | some bare => guard.evaluateLines repo.id bare actor input

namespace Host

variable (host : Host) (disk : Disk) (place : Place)

/-- The hook, in the repository it runs in: whether it passes what it reads. -/
def preReceiveHook (bare : BareRepo) (input : String) : Bool :=
  let input := trimEndMatches input (· = '\n') ++ "\n"
  let records := splitOn input '\n'
  if bare.archived then false
  else if records.any pushesMain then false
  else if records.any movesTag then false
  else match host.helper with
    | none => true
    | some guard => (preReceiveCommand guard disk place host.actor input).isOk

def receivePack (bare : BareRepo) (body : List UInt8) : BareRepo :=
  let received := host.received bare body
  if received.commands = [] then bare
  else if bare.preReceive && !host.preReceiveHook disk place bare (hookInput received.commands) then bare
  else { bare with objects := received.objects ++ bare.objects }.receivePack received.accepted

/-- A pack service run in the repository at `place`, with what it prints. -/
def run (service : PackService) (bare : BareRepo) (body : List UInt8) (protocol : Option String) :
    Except GitdError (List UInt8) × Disk :=
  (host.answers bare service body protocol,
    match service with
    | .uploadPack => disk
    | .receivePack => disk.insert place (host.receivePack disk place bare body))

end Host

end Jeryu.Gitd
