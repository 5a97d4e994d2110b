import Mathlib.Algebra.Group.Int.Defs
import Jeryu.Library.Json
import Jeryu.Library.Text

/-!
Bug reports, what is stored of them, and the rules every backend shares: intake, ids and the
transitions of a status.
-/

namespace Jeryu.Bugs

open Text

/-- Nanoseconds since the epoch. -/
abbrev DateTime := Int

/-- The texts of `chrono` and the digests of `sha2`. -/
structure Crates where
  toRfc3339 : DateTime → String
  sha256 : List UInt8 → List UInt8

inductive BugSeverity where
  | s0 | s1 | s2 | s3 | s4
  deriving DecidableEq

def BugSeverity.label : BugSeverity → String
  | .s0 => "S0"
  | .s1 => "S1"
  | .s2 => "S2"
  | .s3 => "S3"
  | .s4 => "S4"

inductive BugPriority where
  | p0 | p1 | p2 | p3 | p4
  deriving DecidableEq

def BugPriority.label : BugPriority → String
  | .p0 => "P0"
  | .p1 => "P1"
  | .p2 => "P2"
  | .p3 => "P3"
  | .p4 => "P4"

inductive BugStatus where
  | needsTriage
  | needsInfo
  | accepted
  | ready
  | inProgress
  | blocked
  | fixProposed
  | reviewing
  | verifying
  | done
  | duplicate
  | invalid
  | cannotReproduce
  | wontDo
  deriving DecidableEq

namespace BugStatus

def asStr : BugStatus → String
  | needsTriage => "needs_triage"
  | needsInfo => "needs_info"
  | accepted => "accepted"
  | ready => "ready"
  | inProgress => "in_progress"
  | blocked => "blocked"
  | fixProposed => "fix_proposed"
  | reviewing => "reviewing"
  | verifying => "verifying"
  | done => "done"
  | duplicate => "duplicate"
  | invalid => "invalid"
  | cannotReproduce => "cannot_reproduce"
  | wontDo => "wont_do"

def isTerminal : BugStatus → Bool
  | done | duplicate | invalid | cannotReproduce | wontDo => true
  | _ => false

end BugStatus

inductive AttemptStatus where
  | pending
  | started
  | failed
  | fixProposed
  | verified
  | abandoned
  deriving DecidableEq

def AttemptStatus.asStr : AttemptStatus → String
  | pending => "pending"
  | started => "started"
  | failed => "failed"
  | fixProposed => "fix_proposed"
  | verified => "verified"
  | abandoned => "abandoned"

structure BugEvidenceInput where
  kind : String
  summary : String
  path : Option String
  url : Option String
  digest : Option String
  redacted : Bool
  deriving DecidableEq

structure CanonicalBugReport where
  targetProject : String
  sourceProject : String
  title : String
  component : Option String
  currentBehavior : String
  expectedBehavior : String
  environment : String
  frequency : String
  impact : String
  securityPrivacy : String
  noSecretsConfirmed : Bool
  reproductionSteps : List String
  evidence : List BugEvidenceInput
  acceptanceCriteria : List String
  severity : BugSeverity
  priority : BugPriority
  difficulty : UInt8
  deriving DecidableEq

def requireText (field value : String) : Except String Unit :=
  if isBlank value then .error (field ++ " is required") else .ok ()

namespace CanonicalBugReport

/-- The status a report starts with. -/
def validate (report : CanonicalBugReport) : Except String BugStatus := do
  requireText "target_project" report.targetProject
  requireText "source_project" report.sourceProject
  requireText "title" report.title
  requireText "current_behavior" report.currentBehavior
  requireText "expected_behavior" report.expectedBehavior
  requireText "environment" report.environment
  requireText "frequency" report.frequency
  requireText "impact" report.impact
  requireText "security_privacy" report.securityPrivacy
  if !report.noSecretsConfirmed then
    throw "no_secrets_confirmed must be true before a bug can be stored"
  if !(1 ≤ report.difficulty ∧ report.difficulty ≤ 5) then
    throw "difficulty must be between 1 and 5"
  if report.reproductionSteps.isEmpty && report.evidence.isEmpty then return .needsInfo
  return .needsTriage

def isSecuritySensitive (report : CanonicalBugReport) : Bool :=
  let clears := ["no", "none", "no security impact", "no privacy impact"]
  !clears.contains (toAsciiLowercase (trim report.securityPrivacy))

end CanonicalBugReport

structure BugProjectInput where
  aliasName : String
  repoRoot : String
  repoSlug : String
  providerKind : String
  providerProjectId : Option String
  defaultBranch : String
  deriving DecidableEq

structure BugProject where
  aliasName : String
  repoRoot : String
  repoSlug : String
  providerKind : String
  providerProjectId : Option String
  defaultBranch : String
  createdAt : String
  updatedAt : String
  deriving DecidableEq

structure BugRecord where
  id : String
  title : String
  sourceProject : String
  targetProject : String
  component : Option String
  status : BugStatus
  severity : BugSeverity
  priority : BugPriority
  difficulty : UInt8
  impact : String
  security : Bool
  owner : Option String
  body : CanonicalBugReport
  createdAt : String
  updatedAt : String
  attemptCount : Nat
  failedAttemptCount : Nat
  deriving DecidableEq

structure BugEvent where
  id : Nat
  bugId : String
  eventType : String
  actor : String
  payload : Json.Value
  createdAt : String

structure BugAttemptInput where
  agent : Option String
  status : AttemptStatus
  sandboxPath : Option String
  branch : Option String
  baseSha : Option String
  headSha : Option String
  prUrl : Option String
  ciEvidence : Option String
  notes : Option String
  deriving DecidableEq

structure BugAttempt where
  id : Nat
  bugId : String
  agent : Option String
  status : AttemptStatus
  sandboxPath : Option String
  branch : Option String
  baseSha : Option String
  headSha : Option String
  prUrl : Option String
  ciEvidence : Option String
  notes : Option String
  createdAt : String
  updatedAt : String
  deriving DecidableEq

structure BugDetail where
  bug : BugRecord
  events : List BugEvent
  attempts : List BugAttempt

/-- Nothing outside the years 1677 to 2262. -/
def timestampNanosOpt (now : DateTime) : Option Int :=
  if -2 ^ 63 ≤ now ∧ now < 2 ^ 63 then some now else none

def generateBugId (crates : Crates) (report : CanonicalBugReport) (now : DateTime) : String :=
  let submitNanos := (timestampNanosOpt now).getD 0
  let digest := crates.sha256
    (report.targetProject.toUTF8.toList ++ [0] ++ report.sourceProject.toUTF8.toList ++ [0] ++
      report.title.toUTF8.toList ++ [0] ++ (toString submitNanos).toUTF8.toList)
  "bug-" ++ hexEncode (digest.take 5)

/-- A terminal bug is not reopened. -/
def validateTransition (source target : BugStatus) : Except String Unit :=
  if source.isTerminal && source != target then
    .error ("terminal bug status " ++ source.asStr ++ " cannot transition to " ++ target.asStr)
  else .ok ()

theorem validateTransition_ok {source target : BugStatus} (ok : validateTransition source target = .ok ())
    (terminal : source.isTerminal) : target = source := by
  by_contra moved
  have left : source ≠ target := fun same => moved same.symm
  have refused : (source.isTerminal && source != target) = true := by simp [terminal, left]
  simp [validateTransition, refused] at ok

end Jeryu.Bugs
