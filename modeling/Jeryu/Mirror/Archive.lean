import Mathlib.Algebra.GroupWithZero.Nat
import Mathlib.Data.String.Basic
import Jeryu.Library.Text
import Jeryu.Library.Json

/-!
The archive of an import, and how a GitHub export becomes one.
-/

namespace Jeryu.Mirror

open Json Text

/-- An instant. -/
abbrev DateTime := Int

inductive Visibility where
  | publicly
  | privately
  | internally
  deriving DecidableEq

inductive ObjectState where
  | opened
  | closed
  | merged
  | draft
  | archived
  | unknown
  deriving DecidableEq

inductive SourceKind where
  | gitHub
  | offlineBundle
  | localGit
  | mixed
  deriving DecidableEq

structure GitRemoteSnapshot where
  remoteUrl : String
  headSha : Option String
  mirrorRef : Option String
  objectFormat : String
  mirroredAt : DateTime

structure LabelArchive where
  name : String
  color : Option String
  description : Option String

structure MilestoneArchive where
  title : String
  state : ObjectState
  description : Option String
  dueOn : Option DateTime

structure NormalizedComment where
  id : String
  author : Option String
  body : String
  createdAt : Option DateTime
  rawSource : Option Value

structure NormalizedIssue where
  number : UInt64
  title : String
  body : Option String
  state : ObjectState
  author : Option String
  labels : List String
  comments : List NormalizedComment
  createdAt : Option DateTime
  updatedAt : Option DateTime
  closedAt : Option DateTime
  rawSource : Option Value

structure ReviewArchive where
  id : String
  author : Option String
  state : String
  body : Option String
  submittedAt : Option DateTime

structure NormalizedPullRequest where
  number : UInt64
  title : String
  body : Option String
  state : ObjectState
  author : Option String
  headRef : Option String
  baseRef : Option String
  mergeCommitSha : Option String
  reviews : List ReviewArchive
  comments : List NormalizedComment
  createdAt : Option DateTime
  updatedAt : Option DateTime
  closedAt : Option DateTime
  mergedAt : Option DateTime
  rawSource : Option Value

structure ReleaseAssetArchive where
  name : String
  size : Option UInt64
  digest : Option String
  contentType : Option String
  downloadUrl : Option String

structure ReleaseArchive where
  tagName : String
  name : Option String
  body : Option String
  draft : Bool
  prerelease : Bool
  assets : List ReleaseAssetArchive
  createdAt : Option DateTime
  publishedAt : Option DateTime
  rawSource : Option Value

structure ArtifactMetadata where
  name : String
  kind : String
  size : Option UInt64
  digest : Option String
  sourceUrl : Option String
  expiresAt : Option DateTime
  retained : Bool

structure WebhookMigration where
  id : String
  url : String
  events : List String
  active : Bool
  contentType : Option String
  secretName : Option String
  notes : List String

structure AppInstallationMigration where
  id : String
  slug : String
  permissions : List String
  events : List String
  tokenSecretName : Option String
  notes : List String

structure ProtectedBranchArchive where
  pattern : String
  requiredStatusChecks : List String
  requiredReviews : UInt32
  linearHistory : Bool
  allowForcePushes : Bool
  allowDeletions : Bool

structure RepositoryArchive where
  owner : String
  name : String
  description : Option String
  visibility : Visibility
  defaultBranch : String
  archived : Bool
  disabled : Bool
  git : Option GitRemoteSnapshot
  labels : List LabelArchive
  milestones : List MilestoneArchive
  issues : List NormalizedIssue
  pullRequests : List NormalizedPullRequest
  releases : List ReleaseArchive
  artifacts : List ArtifactMetadata
  webhooks : List WebhookMigration
  appInstallations : List AppInstallationMigration
  protectedBranches : List ProtectedBranchArchive
  rawSource : Option Value

def RepositoryArchive.fullName (repo : RepositoryArchive) : String := repo.owner ++ "/" ++ repo.name

structure SourceDescriptor where
  kind : SourceKind
  id : String
  capturedAt : DateTime

def BUNDLE_FORMAT : String := "jeryu.jeryu_mirror.bundle.v1"

structure Archive where
  format : String
  archiveId : Nat
  generatedAt : DateTime
  source : SourceDescriptor
  repositories : List RepositoryArchive
  warnings : List String

/-- What a call reads of the world: a fresh id, and the clock. -/
structure Stamp where
  archiveId : Nat
  now : DateTime

def Archive.new (stamp : Stamp) (sourceKind : SourceKind) (sourceId : String) : Archive :=
  ⟨BUNDLE_FORMAT, stamp.archiveId, stamp.now, ⟨sourceKind, sourceId, stamp.now⟩, [], []⟩

/-- `sort_by` and `sort_by_key`, which keep the order of equal keys. -/
def sortByKey {α κ : Type} [LinearOrder κ] (key : α → κ) (items : List α) : List α :=
  items.mergeSort fun a b => decide (key a ≤ key b)

def RepositoryArchive.sorted (repo : RepositoryArchive) : RepositoryArchive :=
  { repo with
    labels := sortByKey LabelArchive.name repo.labels
    milestones := sortByKey MilestoneArchive.title repo.milestones
    issues := sortByKey (fun issue => issue.number.toNat) repo.issues
    pullRequests := sortByKey (fun pr => pr.number.toNat) repo.pullRequests
    releases := sortByKey ReleaseArchive.tagName repo.releases
    artifacts := sortByKey ArtifactMetadata.name repo.artifacts
    webhooks := sortByKey WebhookMigration.url repo.webhooks
    appInstallations := sortByKey AppInstallationMigration.slug repo.appInstallations
    protectedBranches := sortByKey ProtectedBranchArchive.pattern repo.protectedBranches }

def Archive.sortForDeterminism (archive : Archive) : Archive :=
  { archive with
    repositories := (sortByKey RepositoryArchive.fullName archive.repositories).map
      RepositoryArchive.sorted }

/-- What `serde_json` and `chrono` do: the compact text of a value, and the instant of an RFC 3339
    text. -/
structure Texts where
  render : Value → String
  parseRfc3339 : String → Option DateTime

section Parsers

def array (value : Value) (key : String) : List Value := ((value.get key).bind Value.asArray).getD []

def strings (values : List Value) : List String := values.filterMap Value.asStr

def stringOr (value : Value) (key default : String) : String := (value.str key).getD default

def number (value : Value) (key : String) : UInt64 := ((value.get key).bind Value.asU64).getD 0

def flag (value : Value) (key : String) (default : Bool) : Bool :=
  ((value.get key).bind Value.asBool).getD default

def parseState (value : Option String) : ObjectState :=
  match toAsciiLowercase (value.getD "unknown") with
  | "open" | "opened" => .opened
  | "closed" => .closed
  | "merged" => .merged
  | "draft" => .draft
  | "archived" => .archived
  | _ => .unknown

/-- The first of two places that has a value, read as a string. -/
def either (first second : Option Value) : Option String := (first.or second).bind Value.asStr

def author (value : Value) : Option String := either (value.pointer "user" "login") (value.get "author")

variable (texts : Texts)

def parseTime (value : Option String) : Option DateTime := value.bind texts.parseRfc3339

def timeAt (value : Value) (key : String) : Option DateTime := parseTime texts (value.str key)

def idOf (value : Value) : String := ((value.get "id").map texts.render).getD "unknown"

def parseLabel (value : Value) : LabelArchive where
  name := stringOr value "name" "unnamed"
  color := value.str "color"
  description := value.str "description"

def parseMilestone (value : Value) : MilestoneArchive where
  title := stringOr value "title" "untitled"
  state := parseState (value.str "state")
  description := value.str "description"
  dueOn := timeAt texts value "due_on"

def parseComment (value : Value) : NormalizedComment where
  id := idOf texts value
  author := author value
  body := stringOr value "body" ""
  createdAt := timeAt texts value "created_at"
  rawSource := some value

def parseIssue (value : Value) : NormalizedIssue where
  number := number value "number"
  title := stringOr value "title" "untitled issue"
  body := value.str "body"
  state := parseState (value.str "state")
  author := author value
  labels := (array value "labels").map fun label => (label.str "name").getD "unknown"
  comments := (array value "comments").map (parseComment texts)
  createdAt := timeAt texts value "created_at"
  updatedAt := timeAt texts value "updated_at"
  closedAt := timeAt texts value "closed_at"
  rawSource := some value

def parseReview (value : Value) : ReviewArchive where
  id := idOf texts value
  author := author value
  state := stringOr value "state" "COMMENTED"
  body := value.str "body"
  submittedAt := timeAt texts value "submitted_at"

def parsePr (value : Value) : NormalizedPullRequest where
  number := number value "number"
  title := stringOr value "title" "untitled pull request"
  body := value.str "body"
  state := if (value.str "merged_at").isSome then .merged else parseState (value.str "state")
  author := author value
  headRef := either (value.pointer "head" "ref") (value.get "head_ref")
  baseRef := either (value.pointer "base" "ref") (value.get "base_ref")
  mergeCommitSha := value.str "merge_commit_sha"
  reviews := (array value "reviews").map (parseReview texts)
  comments := (array value "comments").map (parseComment texts)
  createdAt := timeAt texts value "created_at"
  updatedAt := timeAt texts value "updated_at"
  closedAt := timeAt texts value "closed_at"
  mergedAt := timeAt texts value "merged_at"
  rawSource := some value

def parseReleaseAsset (value : Value) : ReleaseAssetArchive where
  name := stringOr value "name" "asset"
  size := (value.get "size").bind Value.asU64
  digest := either (value.get "digest") (value.get "sha256")
  contentType := value.str "content_type"
  downloadUrl := either (value.get "browser_download_url") (value.get "download_url")

def parseRelease (value : Value) : ReleaseArchive where
  tagName := stringOr value "tag_name" "untagged"
  name := value.str "name"
  body := value.str "body"
  draft := flag value "draft" false
  prerelease := flag value "prerelease" false
  assets := (array value "assets").map parseReleaseAsset
  createdAt := timeAt texts value "created_at"
  publishedAt := timeAt texts value "published_at"
  rawSource := some value

def parseArtifact (value : Value) : ArtifactMetadata where
  name := stringOr value "name" "artifact"
  kind := stringOr value "kind" "github-actions-artifact"
  size := ((value.get "size_in_bytes").or (value.get "size")).bind Value.asU64
  digest := either (value.get "digest") (value.get "sha256")
  sourceUrl := either (value.get "archive_download_url") (value.get "url")
  expiresAt := timeAt texts value "expires_at"
  retained := !flag value "expired" false

def parseWebhook (value : Value) : WebhookMigration :=
  let config := (value.get "config").getD value
  let hasSecret := ((config.str "secret").map fun s => decide (s ≠ "")).getD false
  let id := idOf texts value
  { id := id
    url := stringOr config "url" "https://example.invalid/webhook"
    events := match (value.get "events").bind Value.asArray with
      | some events => strings events
      | none => ["push"]
    active := flag value "active" true
    contentType := config.str "content_type"
    secretName := if hasSecret then some ("jeryu_mirror/webhook/" ++ id) else none
    notes := ["Secret value intentionally omitted; rehydrate in target secret store."] }

def parseApp (value : Value) : AppInstallationMigration :=
  let id := idOf texts value
  { id := id
    slug := stringOr value "slug" "github-app"
    permissions := match (value.get "permissions").bind Value.asObject with
      | some object => object.map Prod.fst
      | none => []
    events := match (value.get "events").bind Value.asArray with
      | some values => strings values
      | none => []
    tokenSecretName := some ("jeryu_mirror/app/" ++ id ++ "/token")
    notes := ["Installation token is not exportable; recreate or rotate after restore."] }

def parseProtectedBranch (value : Value) : ProtectedBranchArchive where
  pattern := (either (value.get "pattern") (value.get "name")).getD "main"
  requiredStatusChecks :=
    match (value.pointer "required_status_checks" "contexts").bind Value.asArray with
    | some values => strings values
    | none => []
  requiredReviews := ((((value.pointer "required_pull_request_reviews" "required_approving_review_count").or
    (value.get "required_reviews")).bind Value.asU64).getD 0).toUInt32
  linearHistory := flag value "required_linear_history" false
  allowForcePushes := flag value "allow_force_pushes" false
  allowDeletions := flag value "allow_deletions" false

def parseOwner (value : Value) : String :=
  ((((value.pointer "owner" "login").or (value.pointer "organization" "login")).or
    (value.get "owner")).bind Value.asStr).getD "unknown-owner"

def parseGit (now : DateTime) (value : Value) : Option GitRemoteSnapshot :=
  ((((value.get "clone_url").or (value.get "ssh_url")).or (value.get "mirror_url")).bind Value.asStr).map
    fun url =>
      { remoteUrl := url
        headSha := value.str "head_sha"
        mirrorRef := value.str "mirror_ref"
        objectFormat := stringOr value "object_format" "sha1"
        mirroredAt := now }

def parseRepo (now : DateTime) (value : Value) : RepositoryArchive where
  owner := parseOwner value
  name := stringOr value "name" "unknown-repo"
  description := value.str "description"
  visibility := if flag value "private" true then .privately else .publicly
  defaultBranch := stringOr value "default_branch" "main"
  archived := flag value "archived" false
  disabled := flag value "disabled" false
  git := parseGit now value
  labels := (array value "labels").map parseLabel
  milestones := (array value "milestones").map (parseMilestone texts)
  issues := ((array value "issues").filter fun item => (item.get "pull_request").isNone).map
    (parseIssue texts)
  pullRequests := (array value "pull_requests" ++ array value "pulls").map (parsePr texts)
  releases := (array value "releases").map (parseRelease texts)
  artifacts := (array value "artifacts").map (parseArtifact texts)
  webhooks := (array value "hooks" ++ array value "webhooks").map (parseWebhook texts)
  appInstallations := (array value "app_installations").map (parseApp texts)
  protectedBranches := (array value "protected_branches" ++ array value "branch_protections").map
    parseProtectedBranch
  rawSource := some value

inductive MirrorError where
  | unsupportedSource (message : String)
  deriving DecidableEq

/-- The repositories that an import reads. -/
def reposOf (value : Value) : Option (List Value) :=
  ((value.get "repositories").or (value.get "repos")).bind Value.asArray

def archiveFromGithubValue (stamp : Stamp) (value : Value) : Except MirrorError Archive :=
  match reposOf value with
  | none => .error (.unsupportedSource "expected GitHub export with repositories[] or repos[]")
  | some repos =>
    let archive := Archive.new stamp .gitHub ((value.str "source").getD "github-export")
    .ok { archive with repositories := repos.map (parseRepo texts stamp.now) }.sortForDeterminism

end Parsers

end Jeryu.Mirror
