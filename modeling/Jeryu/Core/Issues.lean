import Jeryu.Core.Accounts

namespace Jeryu.Core

open KeyedMap Text

def openedIssue (owner repo author : String) (number : Nat) (id : Uuid) (now : DateTime)
    (request : CreateIssueRequest) : Issue where
  id
  owner
  repo
  number
  title := request.title
  body := request.body
  state := .opened
  author
  labels := request.labels
  assignees := request.assignees
  milestone := request.milestone
  comments := 0
  pullRequest := none
  createdAt := now
  updatedAt := now
  closedAt := none

def createIssueLocked (owner repo author : String) (request : CreateIssueRequest)
    (core : ForgeCore) : Outcome Issue :=
  let (number, state) := core.state.nextRecordNumber owner repo
  let issue := openedIssue owner repo author number core.uuids core.now request
  let state := { state with issues := state.issues.insert (owner, repo, number) issue }
  let next := state.emitEventLocked owner repo "issues" ⟨"opened", "issue", .issue issue⟩ core.now
  .commit [] 1 next none issue

def createIssue (owner repo author : String) (request : CreateIssueRequest) : Method Issue := do
  .ofExcept (requireName "issue title" request.title)
  ensureRepoExists owner repo
  let _ ← ensureUser author
  .locked (createIssueLocked owner repo author request)

/-- The request's fields written over the issue's, and the action announced. -/
def UpdateIssueRequest.apply (request : UpdateIssueRequest) (issue : Issue) (now : DateTime) :
    Issue × String :=
  let edited := { issue with
    title := request.title.getD issue.title
    body := request.body.or issue.body
    labels := request.labels.getD issue.labels
    assignees := request.assignees.getD issue.assignees
    milestone := request.milestone.or issue.milestone
    updatedAt := now }
  match request.state with
  | some .opened => ({ edited with state := .opened, closedAt := none }, "reopened")
  | some .closed => ({ edited with state := .closed, closedAt := some now }, "closed")
  | none => (edited, "edited")

def updateIssueLocked (owner repo : String) (number : Nat) (request : UpdateIssueRequest)
    (core : ForgeCore) : Outcome Issue :=
  match core.state.issues.lookup (owner, repo, number) with
  | none => .refuse (.notFound s!"issue {owner}/{repo}#{number}")
  | some issue =>
    if request.title.any isBlank then .refuse (.validation "issue title cannot be empty")
    else
      let (updated, action) := request.apply issue core.now
      let state := { core.state with
        issues := core.state.issues.insert (owner, repo, number) updated }
      let next := state.emitEventLocked owner repo "issues" ⟨action, "issue", .issue updated⟩ core.now
      .commit [] 0 next none updated

def updateIssue (owner repo : String) (number : Nat) (request : UpdateIssueRequest) : Method Issue :=
  .locked (updateIssueLocked owner repo number request)

def addIssueCommentLocked (owner repo : String) (number : Nat) (author body : String)
    (core : ForgeCore) : Outcome IssueComment :=
  let key := (owner, repo, number)
  match core.state.issues.lookup key with
  | none => .refuse (.notFound s!"issue {owner}/{repo}#{number}")
  | some issue =>
    let comment : IssueComment :=
      { id := core.uuids, owner, repo, issueNumber := number, author, body, createdAt := core.now
        updatedAt := core.now }
    let state := { core.state with
      issues := core.state.issues.insert key
        { issue with comments := issue.comments + 1, updatedAt := core.now }
      issueComments := core.state.issueComments.push key comment }
    let next := state.emitEventLocked owner repo "issue_comment"
      ⟨"created", "comment", .comment comment⟩ core.now
    .commit [] 1 next none comment

def addIssueComment (owner repo : String) (number : Nat) (author body : String) :
    Method IssueComment := do
  .ofExcept (requireName "comment body" body)
  let _ ← ensureUser author
  .locked (addIssueCommentLocked owner repo number author body)

end Jeryu.Core
