import Jeryu.Mirror.Archive

/-!
The files of an offline bundle.
-/

namespace Jeryu.Mirror

open Json Text

def MARKER : String := "JERYU_JERYU_MIRROR_BUNDLE_V1\n"

structure ArchiveCounts where
  repositories : Nat
  issues : Nat
  pullRequests : Nat
  labels : Nat
  milestones : Nat
  releases : Nat
  releaseAssets : Nat
  artifacts : Nat
  webhooks : Nat
  appInstallations : Nat
  protectedBranches : Nat
  deriving DecidableEq

def Archive.counts (archive : Archive) : ArchiveCounts :=
  let total (count : RepositoryArchive → Nat) := (archive.repositories.map count).sum
  { repositories := archive.repositories.length
    issues := total fun repo => repo.issues.length
    pullRequests := total fun repo => repo.pullRequests.length
    labels := total fun repo => repo.labels.length
    milestones := total fun repo => repo.milestones.length
    releases := total fun repo => repo.releases.length
    releaseAssets := total fun repo => (repo.releases.map fun release => release.assets.length).sum
    artifacts := total fun repo => repo.artifacts.length
    webhooks := total fun repo => repo.webhooks.length
    appInstallations := total fun repo => repo.appInstallations.length
    protectedBranches := total fun repo => repo.protectedBranches.length }

structure BundleManifest where
  format : String
  bundleId : Nat
  createdAt : DateTime
  source : SourceDescriptor
  counts : ArchiveCounts
  archiveDigest : String
  files : List String
  restoreInstructions : String

/-- What is written as JSON. -/
inductive Document where
  | archive (archive : Archive)
  | repository (repo : RepositoryArchive)
  | issues (issues : List NormalizedIssue)
  | pullRequests (pullRequests : List NormalizedPullRequest)
  | releases (releases : List ReleaseArchive)
  | artifacts (artifacts : List ArtifactMetadata)
  | webhooks (webhooks : List WebhookMigration)
  | apps (apps : List AppInstallationMigration)
  | manifest (manifest : BundleManifest)

/-- The texts of `serde_json`, `sha2` and `uuid`. -/
structure Encoding where
  pretty : Document → List UInt8
  compact : Archive → List UInt8
  sha256Hex : List UInt8 → String
  uuid : Nat → String

def safe (input : String) : String :=
  String.ofList (input.toList.map fun ch =>
    if isAsciiAlphanumeric ch || ch = '-' || ch = '_' || ch = '.' then ch else '_')

/-- A file below the directory of the bundle. -/
structure BundleFile where
  path : List String
  bytes : List UInt8
  deriving DecidableEq

def RepositoryArchive.documents (repo : RepositoryArchive) : List (String × Document) :=
  [("repository.json", .repository repo), ("issues.json", .issues repo.issues),
    ("pull_requests.json", .pullRequests repo.pullRequests), ("releases.json", .releases repo.releases),
    ("artifacts.json", .artifacts repo.artifacts), ("webhooks.json", .webhooks repo.webhooks),
    ("apps.json", .apps repo.appInstallations)]

variable (encoding : Encoding)

def Archive.canonicalDigest (archive : Archive) : String :=
  "sha256:" ++ encoding.sha256Hex (encoding.compact archive)

def restoreInstructions (archive : Archive) : String :=
  let counts := archive.counts
  "# JeryuMirror restore instructions\n\nBundle `" ++ encoding.uuid archive.archiveId ++ "` contains " ++
    toString counts.repositories ++ " repositories, " ++ toString counts.issues ++ " issues, " ++
    toString counts.pullRequests ++ " pull requests, and " ++ toString counts.releases ++
    " releases.\n\n1. Verify `manifest.json` and `archive.json` digest.\n2. Recreate repositories and protected branches.\n3. Restore issues, pull requests, labels, milestones, releases, and artifact metadata.\n4. Rehydrate webhook/app tokens from the target secret store; secret values are not included.\n5. Run mirror drift detection after first sync.\n"

def repositoryFiles (repo : RepositoryArchive) : List BundleFile :=
  repo.documents.map fun (name, document) =>
    ⟨["repos", safe repo.owner, safe repo.name, name], encoding.pretty document⟩

def manifestOf (archive : Archive) : BundleManifest where
  format := BUNDLE_FORMAT
  bundleId := archive.archiveId
  createdAt := archive.generatedAt
  source := archive.source
  counts := archive.counts
  archiveDigest := archive.canonicalDigest encoding
  files := ["JERYU_BUNDLE", "archive.json"] ++
    archive.repositories.flatMap (fun repo => repo.documents.map fun document =>
      "repos/" ++ safe repo.owner ++ "/" ++ safe repo.name ++ "/" ++ document.1) ++
    ["docs/restore-instructions.md"]
  restoreInstructions := "docs/restore-instructions.md"

/-- The files in the order they are written, and the manifest. A later file of one path replaces
    an earlier one. -/
def writeBundle (archive : Archive) : List BundleFile × BundleManifest :=
  let archive := archive.sortForDeterminism
  let manifest := manifestOf encoding archive
  ([⟨["JERYU_BUNDLE"], MARKER.toUTF8.toList⟩, ⟨["archive.json"], encoding.pretty (.archive archive)⟩] ++
    archive.repositories.flatMap (repositoryFiles encoding) ++
    [⟨["docs", "restore-instructions.md"], (restoreInstructions encoding archive).toUTF8.toList⟩,
      ⟨["manifest.json"], encoding.pretty (.manifest manifest)⟩], manifest)

end Jeryu.Mirror
