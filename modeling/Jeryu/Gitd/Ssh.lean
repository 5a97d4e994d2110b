import Jeryu.Gitd.Credentials
import Jeryu.Gitd.Receive

/-!
The SSH forced command.
-/

namespace Jeryu.Gitd

open KeyedMap Text

structure SshGitCommand where
  service : PackService
  owner : String
  /-- The directory, with its `.git`. -/
  repoGit : String
  deriving DecidableEq

/-- Around the first white space. -/
def splitWord (s : String) : Option (String × String) :=
  match s.toList.span fun c => !isWhitespace c with
  | (_, []) => none
  | (word, _ :: rest) => some (String.ofList word, String.ofList rest)

namespace SshGitCommand

def parse (input : String) : Except GitdError SshGitCommand := do
  match splitWord (trim input) with
  | none => throw (.invalidInput "ssh command missing repository path")
  | some (name, rest) =>
    match PackService.parse name with
    | none => throw (.invalidInput s!"unsupported ssh git service: {name}")
    | some service =>
      let repoPath := trimStartMatches (trimMatches (trimMatches (trim rest) '"') '\'') (· = '/')
      match splitOn repoPath '/' with
      | [owner, repo] =>
        validateSegment owner "owner"
        return ⟨service, owner, ← normalizeRepoName repo⟩
      | _ => throw (.invalidPath s!"ssh repo path must be owner/repo.git, got {repoPath}")

/-- The directory `git` is started on. -/
def repoPath (command : SshGitCommand) : Place := ⟨command.owner, command.repoGit⟩

def isWrite (command : SshGitCommand) : Bool := command.service.isWrite

end SshGitCommand

def authorizeSsh (registry : AuthRegistry) (command : SshGitCommand) (fingerprint : Option String)
    (isLoopback : Bool) : Except GitdError Principal := do
  let principal ←
    match fingerprint with
    | some fingerprint =>
      match registry.sshKeys.lookup (trim fingerprint) with
      | some principal => pure principal
      | none => throw .unauthorized
    | none => if !command.isWrite && isLoopback then pure Principal.localOperator else throw .unauthorized
  if principal.may command.owner command.isWrite then return principal
  let access := if command.isWrite then "push to" else "read"
  throw (.forbidden s!"{principal.login} not authorized to {access} {command.owner}")

/-- What `sshd` exports to the forced command. -/
structure SshEnv where
  originalCommand : Option String
  fingerprint : Option String
  isLoopback : Bool

section Exec

variable (host : Host) (registry : Except GitdError AuthRegistry) (disk : Disk) (env : SshEnv)

/-- The command, allowed, and the repository it names there. -/
def sshTarget : Except GitdError (SshGitCommand × BareRepo) := do
  match env.originalCommand with
  | none => throw (.invalidInput "SSH_ORIGINAL_COMMAND is not set")
  | some original =>
    let parsed ← SshGitCommand.parse original
    let registry ← registry
    let fingerprint := env.fingerprint.filter fun fingerprint => trim fingerprint ≠ ""
    let _ ← authorizeSsh registry parsed fingerprint env.isLoopback
    match disk.lookup parsed.repoPath with
    | none => throw (RepoManager.notFound parsed.repoPath)
    | some bare => return (parsed, bare)

/-- The repository whose mark a push looks at, found again by its name. -/
def sshOpened (command : SshGitCommand) : Except GitdError (Repository × BareRepo) := do
  let opened ← (⟨none⟩ : RepoManager).openParts disk command.owner command.repoGit
  match disk.lookup opened.place with
  | none => throw (RepoManager.notFound opened.place)
  | some bare => return (opened, bare)

def sshWritable (command : SshGitCommand) : Except GitdError Unit := do
  let (opened, bare) ← sshOpened disk command
  bare.ensureWritable opened.id

def execFromEnv (input : List UInt8) : Except GitdError (List UInt8) × Disk :=
  match sshTarget registry disk env with
  | .error error => (.error error, disk)
  | .ok (command, bare) =>
    if !command.isWrite then host.run disk command.repoPath .uploadPack bare input none
    else match sshWritable disk command with
      | .error error => (.error error, disk)
      | .ok () => host.run disk command.repoPath .receivePack bare input none

end Exec

end Jeryu.Gitd
