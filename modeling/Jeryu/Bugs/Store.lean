import Jeryu.Bugs.Domain
import Jeryu.Library.KeyedMap

/-!
The bug store in memory. Every call holds the one mutex while it works, so that calls come one
after the other.
-/

namespace Jeryu.Bugs

open KeyedMap

structure State where
  projects : HashMap String BugProject
  bugs : HashMap String BugRecord
  events : List BugEvent
  attempts : List BugAttempt
  idempotency : HashMap String String
  nextEventId : Nat
  nextAttemptId : Nat

def State.default : State := ⟨∅, ∅, [], [], ∅, 0, 0⟩

def nullable : Option String → Json.Value
  | some s => .string s
  | none => .null

def BugAttempt.isFailed (attempt : BugAttempt) : Bool := attempt.status.asStr = "failed"

/-- The record of a report that has just been submitted. -/
def CanonicalBugReport.record (crates : Crates) (report : CanonicalBugReport) (id : String)
    (status : BugStatus) (now : DateTime) : BugRecord where
  id := id
  title := report.title
  sourceProject := report.sourceProject
  targetProject := report.targetProject
  component := report.component
  status := status
  severity := report.severity
  priority := report.priority
  difficulty := report.difficulty
  impact := report.impact
  security := report.isSecuritySensitive
  owner := none
  body := report
  createdAt := crates.toRfc3339 now
  updatedAt := crates.toRfc3339 now
  attemptCount := 0
  failedAttemptCount := 0

/-- The fields that `update_bug` sets, where it is given them. -/
structure Triage where
  status : Option BugStatus
  severity : Option BugSeverity
  priority : Option BugPriority
  component : Option String
  owner : Option String

def Triage.apply (triage : Triage) (crates : Crates) (before : BugRecord) (now : DateTime) : BugRecord :=
  { before with
    status := triage.status.getD before.status
    severity := triage.severity.getD before.severity
    priority := triage.priority.getD before.priority
    component := triage.component.or before.component
    owner := triage.owner.or before.owner
    updatedAt := crates.toRfc3339 now }

namespace State

variable (crates : Crates) (state : State)

def appendEventLocked (bugId eventType actor : String) (payload : Json.Value) (now : DateTime) : State :=
  let id := state.nextEventId + 1
  { state with
    nextEventId := id
    events := state.events ++ [⟨id, bugId, eventType, actor, payload, crates.toRfc3339 now⟩] }

def attemptsOf (bugId : String) : List BugAttempt :=
  state.attempts.filter fun attempt => attempt.bugId = bugId

def attachAttemptCountsLocked (bug : BugRecord) : BugRecord :=
  { bug with
    attemptCount := (state.attemptsOf bug.id).length
    failedAttemptCount := (state.attemptsOf bug.id).countP BugAttempt.isFailed }

def addProject (input : BugProjectInput) (now : DateTime) : State × Except String BugProject :=
  let createdAt := ((state.projects.lookup input.aliasName).map BugProject.createdAt).getD
    (crates.toRfc3339 now)
  let project : BugProject :=
    { aliasName := input.aliasName
      repoRoot := input.repoRoot
      repoSlug := input.repoSlug
      providerKind := input.providerKind
      providerProjectId := input.providerProjectId
      defaultBranch := input.defaultBranch
      createdAt := createdAt
      updatedAt := crates.toRfc3339 now }
  ({ state with projects := state.projects.insert input.aliasName project }, .ok project)

/-- The bug that the key has been given to. -/
def existing (idempotencyKey : Option String) : Option BugRecord := do
  let key ← idempotencyKey
  let id ← state.idempotency.lookup key
  state.bugs.lookup id

def file (report : CanonicalBugReport) (status : BugStatus) (idempotencyKey : Option String)
    (actor : String) (now logged : DateTime) : State :=
  let id := generateBugId crates report now
  let filed := { state with
    bugs := state.bugs.insert id (report.record crates id status now)
    idempotency := match idempotencyKey with
      | some key => state.idempotency.insert key id
      | none => state.idempotency }
  filed.appendEventLocked crates id "submitted" actor (.object [("status", .string status.asStr)]) logged

/-- `now` is read before the lock is taken, `logged` for the event. -/
def submitBug (report : CanonicalBugReport) (idempotencyKey : Option String) (actor : String)
    (now logged : DateTime) : State × Except String BugRecord :=
  match report.validate with
  | .error error => (state, .error error)
  | .ok status =>
    match state.existing idempotencyKey with
    | some bug => (state, .ok (state.attachAttemptCountsLocked bug))
    | none =>
      let filed := state.file crates report status idempotencyKey actor now logged
      -- what is read back under the id is the record just inserted
      let record := report.record crates (generateBugId crates report now) status now
      (filed, .ok (filed.attachAttemptCountsLocked record))

def triaged (bugId : String) (bug : BugRecord) (actor : String) (logged : DateTime) : State :=
  { state with bugs := state.bugs.insert bugId bug }.appendEventLocked crates bugId "triaged" actor
    (.object [("component", nullable bug.component), ("owner", nullable bug.owner),
      ("priority", .string bug.priority.label), ("severity", .string bug.severity.label),
      ("status", .string bug.status.asStr)]) logged

def updateBug (bugId : String) (triage : Triage) (actor : String) (now logged : DateTime) :
    State × Except String BugRecord :=
  match state.bugs.lookup bugId with
  | none => (state, .error ("load bug " ++ bugId))
  | some before =>
    match validateTransition before.status (triage.status.getD before.status) with
    | .error error => (state, .error error)
    | .ok () =>
      let bug := triage.apply crates before now
      let updated := state.triaged crates bugId bug actor logged
      (updated, .ok (updated.attachAttemptCountsLocked bug))

def attempt (bugId : String) (input : BugAttemptInput) (now : DateTime) : BugAttempt where
  id := state.nextAttemptId + 1
  bugId := bugId
  agent := input.agent
  status := input.status
  sandboxPath := input.sandboxPath
  branch := input.branch
  baseSha := input.baseSha
  headSha := input.headSha
  prUrl := input.prUrl
  ciEvidence := input.ciEvidence
  notes := input.notes
  createdAt := crates.toRfc3339 now
  updatedAt := crates.toRfc3339 now

def attempted (bugId : String) (attempt : BugAttempt) (actor : String) (logged : DateTime) : State :=
  { state with
    nextAttemptId := attempt.id
    attempts := state.attempts ++ [attempt] }.appendEventLocked crates bugId "attempt_recorded" actor
    (.object [("attempt_id", .number (.posInt (UInt64.ofNat attempt.id))),
      ("status", .string attempt.status.asStr)]) logged

def recordAttempt (bugId : String) (input : BugAttemptInput) (actor : String) (now logged : DateTime) :
    State × Except String BugAttempt :=
  match state.bugs.lookup bugId with
  | none => (state, .error ("load bug " ++ bugId))
  | some _ =>
    let attempt := state.attempt crates bugId input now
    (state.attempted crates bugId attempt actor logged, .ok attempt)

def showBug (bugId : String) : Except String BugDetail :=
  match state.bugs.lookup bugId with
  | none => .error ("load bug " ++ bugId)
  | some bug => .ok
    { bug := state.attachAttemptCountsLocked bug
      events := (state.events.filter fun event => event.bugId = bugId).mergeSort fun a b => a.id ≤ b.id
      attempts := (state.attemptsOf bugId).mergeSort fun a b => a.id ≤ b.id }

end State

inductive Call where
  | addProject (input : BugProjectInput) (now : DateTime)
  | submitBug (report : CanonicalBugReport) (idempotencyKey : Option String) (actor : String)
      (now logged : DateTime)
  | updateBug (bugId : String) (triage : Triage) (actor : String) (now logged : DateTime)
  | recordAttempt (bugId : String) (input : BugAttemptInput) (actor : String) (now logged : DateTime)

inductive Reply where
  | project (result : Except String BugProject)
  | bug (result : Except String BugRecord)
  | attempt (result : Except String BugAttempt)

def step (crates : Crates) (state : State) : Call → State × Reply
  | .addProject input now => (state.addProject crates input now).map id .project
  | .submitBug report idempotencyKey actor now logged =>
    (state.submitBug crates report idempotencyKey actor now logged).map id .bug
  | .updateBug bugId triage actor now logged =>
    (state.updateBug crates bugId triage actor now logged).map id .bug
  | .recordAttempt bugId input actor now logged =>
    (state.recordAttempt crates bugId input actor now logged).map id .attempt

end Jeryu.Bugs
