import Jeryu.Library.KeyedFold

namespace Jeryu.Proof

open KeyedMap

structure ProofLane where
  name : String
  commands : List String
  required : Bool
  deriving DecidableEq

structure ProofPlan where
  repo : String
  pr : String
  headSha : String
  paths : List String
  owners : List String
  lanes : List ProofLane
  deriving DecidableEq

structure ProofEvidence where
  lane : String
  success : Bool
  deriving DecidableEq

inductive ProofBlocker where
  | ownerlessPath (path : String)
  | unmappedProofLane (name : String)
  | generatedZoneEditDenied (path reason : String)
  | missingEvidence (lane : String)
  | failedLane (lane : String)
  deriving DecidableEq

inductive ReceiptKind where
  | proofPlan
  | proofWitness
  | agentDryRunPatch
  | agentProposedFix
  | agentHotfix
  | mergeQueue
  | repair
  deriving DecidableEq

structure Receipt where
  id : String
  kind : ReceiptKind
  repo : String
  agent : Option String
  subject : String
  sha : String
  summary : String
  commands : List String
  residualRisk : String
  createdAtMs : Nat
  deriving DecidableEq

structure ProofWitness where
  id : String
  repo : String
  pr : String
  headSha : String
  changedPaths : List String
  lanes : List String
  owners : List String
  receipt : Receipt
  deriving DecidableEq

/-- The evidence under the lanes it is for; of two entries for a lane the later one stays. -/
def evidenceByLane (evidence : List ProofEvidence) : HashMap String ProofEvidence :=
  evidence.foldl (fun byLane entry => byLane.insert entry.lane entry) ∅

def checkLanes (byLane : HashMap String ProofEvidence) : List ProofLane → Except ProofBlocker Unit
  | [] => .ok ()
  | lane :: rest =>
    if lane.required then
      match byLane.lookup lane.name with
      | none => .error (.missingEvidence lane.name)
      | some entry => if entry.success then checkLanes byLane rest else .error (.failedLane lane.name)
    else checkLanes byLane rest

/-- The witness of a plan, under a fresh receipt id, at `now`. -/
def witnessOf (plan : ProofPlan) (id : String) (now : Nat) : ProofWitness :=
  let laneNames := plan.lanes.map ProofLane.name
  { id
    repo := plan.repo
    pr := plan.pr
    headSha := plan.headSha
    changedPaths := plan.paths
    lanes := laneNames
    owners := plan.owners
    receipt :=
      { id
        kind := .proofWitness
        repo := plan.repo
        agent := none
        subject := plan.pr
        sha := plan.headSha
        summary := s!"proof witness covers {plan.paths.length} path(s) and {laneNames.length} lane(s)"
        commands := laneNames.map fun lane => "proof-lane:" ++ lane
        residualRisk := "none: all required lanes passed"
        createdAtMs := now } }

def verify (plan : ProofPlan) (evidence : List ProofEvidence) (id : String) (now : Nat) :
    Except ProofBlocker ProofWitness :=
  (checkLanes (evidenceByLane evidence) plan.lanes).map fun _ => witnessOf plan id now

end Jeryu.Proof
