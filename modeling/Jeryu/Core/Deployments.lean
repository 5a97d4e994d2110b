import Jeryu.Core.Accounts

namespace Jeryu.Core

open KeyedMap Text

def requireSha (sha : String) : Except ForgeError Unit :=
  if len sha == 40 && all sha isLowercaseHexdigit then .ok ()
  else .error (.validation "sha must be a full 40-character lowercase hex commit id")

/-- Durable through the deployment's own row, never the snapshot. -/
def createDeploymentLocked (owner repo creator refName : String) (payload : Value)
    (production : Bool) (request : CreateDeploymentRequest) (core : ForgeCore) :
    Outcome Deployment :=
  match core.state.repos.lookup (owner, repo) with
  | none => .refuse (.notFound s!"repository {owner}/{repo}")
  | some repository =>
    let deployment : Deployment :=
      { id := (core.state.deployments.keys.max?.map (· + 1)).getD 1, repositoryId := repository.id
        owner, repo, sha := request.sha, refName, task := request.task
        environment := request.environment, description := request.description, payload
        productionEnvironment := production
        transientEnvironment := request.transientEnvironment, creator, createdAt := core.now }
    let appended := match core.storage with
      | some store => store.appendDeployment deployment
      | none => .ok ()
    match appended with
    | .error error => .refuse error
    | .ok () =>
      .append (fun tables => { tables with
        deployments := tables.deployments.insert deployment.id deployment }) deployment

def createDeployment (owner repo creator : String) (request : CreateDeploymentRequest) :
    Method Deployment := do
  .ofExcept (requireSha request.sha)
  .ofExcept (requireName "environment" request.environment)
  .ofExcept (requireName "task" request.task)
  let refName ← match request.refName with
    | some value => do
      .ofExcept (requireName "ref" value)
      pure value
    | none => pure request.sha
  let payload := request.payload.getD (.object [])
  let production := request.productionEnvironment.getD (request.environment = "production")
  .locked (createDeploymentLocked owner repo creator refName payload production request)

end Jeryu.Core
