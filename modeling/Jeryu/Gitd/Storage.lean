import Jeryu.Gitd.Refs

/-!
The storage root of the Git server: where a requested repository is, and the objects of its LFS
store.
-/

namespace Jeryu.Gitd

open KeyedMap Text

/-- Where a bare repository is: its directory below the one of its owner. -/
structure Place where
  owner : String
  directory : String
  deriving DecidableEq

/-- The bare repositories under the storage root that have a `HEAD` file. -/
abbrev Disk := HashMap Place BareRepo

def validateSegment (name field : String) : Except GitdError Unit :=
  if name = "" then .error (.invalidPath s!"{field} cannot be empty")
  else if name = "." || name = ".." then .error (.invalidPath s!"{field} cannot be {name}")
  else if contains name "/" || contains name "\\" || contains name "\x00" then
    .error (.invalidPath s!"{field} contains a path separator or NUL")
  else if startsWith name "-" then .error (.invalidPath s!"{field} cannot start with '-'")
  else .ok ()

/-- `trim_matches` of one character. -/
def trimMatches (s : String) (c : Char) : String := trimEndMatches (trimStartMatches s (· = c)) (· = c)

/-- The name without one `.git` at its end. -/
def withoutGit (name : String) : String := (stripSuffix name ".git").getD name

/-- The directory a name in a URL or an SSH command stands for. -/
def normalizeRepoName (repo : String) : Except GitdError String := do
  let repo := withoutGit (trimMatches repo '/')
  validateSegment repo "repo"
  return repo ++ ".git"

def RepoId.new (owner name : String) : Except GitdError RepoId := do
  validateSegment owner "owner"
  validateSegment (withoutGit name) "repo"
  return ⟨owner, withoutGit name⟩

def RepoId.bareName (id : RepoId) : String := id.name ++ ".git"

def RepoId.place (id : RepoId) : Place := ⟨id.owner, id.bareName⟩

/-- A resolved repository. -/
structure Repository where
  id : RepoId
  place : Place
  deriving DecidableEq

/-- `redirects` gives the present id of a repository that has moved. -/
structure RepoManager where
  redirects : Option (String → String → Option RepoId)

namespace RepoManager

def resolve (id : RepoId) : Repository := ⟨id, id.place⟩

/-- The name loses every `.git` at its end. -/
def resolveParts (owner repo : String) : Except GitdError Repository := do
  validateSegment owner "owner"
  let repoGit ← normalizeRepoName repo
  return resolve (← RepoId.new owner (trimEndCopies repoGit ".git"))

def notFound (place : Place) : GitdError := .repoNotFound [place.owner, place.directory]

variable (manager : RepoManager) (disk : Disk)

def redirectTarget (id : RepoId) : Except GitdError (Option Repository) :=
  match manager.redirects with
  | none => .ok none
  | some redirects =>
    match redirects id.owner id.name with
    | none => .ok none
    | some target =>
      if target = id then .ok none
      else do
        let repo := resolve (← RepoId.new target.owner target.name)
        if disk.lookup repo.place = none then throw (notFound repo.place)
        return some repo

/-- A repository that is there wins over a redirect. -/
def opened (id : RepoId) : Except GitdError Repository := do
  let repo := resolve id
  if disk.lookup repo.place ≠ none then return repo
  match ← manager.redirectTarget disk id with
  | some target => return target
  | none => throw (notFound repo.place)

def openParts (owner repo : String) : Except GitdError Repository := do
  let requested ← resolveParts owner repo
  manager.opened disk requested.id

def canonicalParts (owner repo : String) : Except GitdError RepoId := do
  let requested ← resolveParts owner repo
  if disk.lookup requested.place ≠ none then return requested.id
  match ← manager.redirectTarget disk requested.id with
  | some target => return target.id
  | none => return requested.id

end RepoManager

end Jeryu.Gitd
