import Mathlib.Data.Prod.Lex
import Jeryu.Library.Rfc3339
import Jeryu.Library.StableSort
import Jeryu.Bugs.Store

/-!
Listings of bugs. The key of a rank has its last two parts the wrong way round: among bugs of one
triage the more failed attempts come first, and then the longer ago of the updates.
-/

namespace Jeryu.Bugs

open KeyedMap Rfc3339 StableSort

inductive BugSort where
  | rank
  | severity
  | priority
  | difficulty
  | ready
  | updated
  | attempts
  deriving DecidableEq

/-- The values of the enumerations as numbers. -/
def BugSeverity.asU8 : BugSeverity → Nat
  | .s0 => 0
  | .s1 => 1
  | .s2 => 2
  | .s3 => 3
  | .s4 => 4

def BugPriority.asU8 : BugPriority → Nat
  | .p0 => 0
  | .p1 => 1
  | .p2 => 2
  | .p3 => 3
  | .p4 => 4

def BugStatus.readyRank (status : BugStatus) : Nat :=
  match status with
  | .ready => 0
  | .accepted | .needsTriage => 1
  | .blocked | .needsInfo => 3
  | status => if status.isTerminal then 5 else 2

namespace BugRecord

variable (bug : BugRecord)

/-- The first four parts of the key. -/
def triage : Nat ×ₗ Nat ×ₗ Nat ×ₗ Nat :=
  toLex (bug.severity.asU8, toLex (bug.priority.asU8, toLex (bug.status.readyRank, bug.difficulty.toNat)))

def rankingKey : (Nat ×ₗ Nat ×ₗ Nat ×ₗ Nat) ×ₗ Int ×ₗ String :=
  toLex (bug.triage, toLex (-(bug.failedAttemptCount : Int), bug.updatedAt))

end BugRecord

def sortBugs (bugs : List BugRecord) : BugSort → List BugRecord
  | .rank => sortBy BugRecord.rankingKey bugs
  | .severity => sortBy (fun bug => bug.severity.asU8) bugs
  | .priority => sortBy (fun bug => bug.priority.asU8) bugs
  | .difficulty => sortBy (fun bug => bug.difficulty.toNat) bugs
  | .ready => sortBy (fun bug => if bug.status = .ready then 0 else 1) bugs
  | .updated => sortBy (fun bug => OrderDual.toDual bug.updatedAt) bugs
  | .attempts => sortBy (fun bug => -(bug.attemptCount : Int)) bugs

def inProject (project : Option String) (bug : BugRecord) : Bool :=
  match project with
  | some p => if p ≠ "all" then bug.targetProject = p else true
  | none => true

def hasStatus (status : Option BugStatus) (bug : BugRecord) : Bool :=
  match status with
  | some s => bug.status = s
  | none => true

namespace State

variable (state : State) (project : Option String) (status : Option BugStatus)

/-- The values of the map in the order of its keys. -/
def bugsInOrder : List BugRecord := (sortBy Prod.fst state.bugs.pairs).map Prod.snd

def listBugs (sort : BugSort) : List BugRecord :=
  let bugs := (state.bugsInOrder.filter (inProject project)).filter (hasStatus status)
  sortBugs (bugs.map state.attachAttemptCountsLocked) sort

def readyBugs : List BugRecord :=
  (state.listBugs project (some .ready) .rank).filter fun bug => bug.failedAttemptCount < 3

/-- The bugs that a listing is asked for, with their attempts counted. -/
def listed : List BugRecord :=
  (state.bugs.values.filter fun bug => inProject project bug && hasStatus status bug).map state.attachAttemptCountsLocked

theorem bugsInOrder_perm : state.bugsInOrder.Perm state.bugs.values := by
  have values : state.bugs.values = state.bugs.pairs.map Prod.snd := by
    simp [HashMap.values, HashMap.pairs, Function.comp_def]
  rw [values]
  exact (sortBy_perm Prod.fst state.bugs.pairs).map Prod.snd

theorem sortBugs_perm (bugs : List BugRecord) (sort : BugSort) : (sortBugs bugs sort).Perm bugs := by
  cases sort <;> exact sortBy_perm _ bugs

theorem listBugs_perm (sort : BugSort) : (state.listBugs project status sort).Perm (state.listed project status) := by
  have kept := (state.bugsInOrder_perm.filter fun bug => inProject project bug && hasStatus status bug).map
    state.attachAttemptCountsLocked
  have commuted : (fun bug => hasStatus status bug && inProject project bug) =
      fun bug => inProject project bug && hasStatus status bug := by
    funext bug
    exact Bool.and_comm _ _
  unfold listBugs
  rw [List.filter_filter, commuted]
  exact (sortBugs_perm _ sort).trans kept

/-- What is ready of a listing by rank, in the same order. -/
theorem readyBugs_eq : state.readyBugs project = ((state.listBugs project none .rank).filter fun bug =>
    bug.status = .ready).filter fun bug => bug.failedAttemptCount < 3 := by
  have everything : (state.bugsInOrder.filter (inProject project)).filter (hasStatus none) =
      state.bugsInOrder.filter (inProject project) := List.filter_eq_self.2 fun _ _ => rfl
  have kept : ((state.bugsInOrder.filter (inProject project)).map state.attachAttemptCountsLocked).filter
      (fun bug => bug.status = .ready) =
        ((state.bugsInOrder.filter (inProject project)).filter (hasStatus (some .ready))).map state.attachAttemptCountsLocked := by
    rw [List.filter_map]
    rfl
  unfold readyBugs listBugs
  rw [everything, sortBugs, sortBugs, ← kept, ← filter_sortBy]

end State

section Documented

/-- The first was updated no earlier than the second. -/
def RecentFirst (a b : BugRecord) : Prop :=
  ∀ time time' : UtcTime, a.updatedAt = time.text → b.updatedAt = time'.text → time'.instant ≤ time.instant

/-- The order of the documentation: severity, priority, readiness, difficulty, fewer failed attempts first, then most
    recently updated. -/
def RanksBefore (a b : BugRecord) : Prop :=
  a.triage < b.triage ∨ a.triage = b.triage ∧ (a.failedAttemptCount < b.failedAttemptCount ∨
    a.failedAttemptCount = b.failedAttemptCount ∧ RecentFirst a b)

variable (state : State) (project : Option String) (status : Option BugStatus)

structure ListedAsDocumented : Prop where
  rankedAll : (state.listBugs project status .rank).Perm (state.listed project status)
  ranked : (state.listBugs project status .rank).Pairwise RanksBefore
  updatedAll : (state.listBugs project status .updated).Perm (state.listed project status)
  updated : (state.listBugs project status .updated).Pairwise RecentFirst
  ready : state.readyBugs project = ((state.listBugs project none .rank).filter fun bug =>
    bug.status = .ready).filter fun bug => bug.failedAttemptCount < 3

/-- Bugs of one triage have failed as often and were updated together. -/
def NoTies : Prop := ∀ a ∈ state.listed project status, ∀ b ∈ state.listed project status, a.triage = b.triage →
  a.failedAttemptCount = b.failedAttemptCount ∧ a.updatedAt = b.updatedAt

/-- The times of the store are texts of `chrono`. -/
def State.Printed : Prop := ∀ id bug, state.bugs.lookup id = some bug → ∃ time : UtcTime, bug.updatedAt = time.text

variable {state project status}

theorem State.Printed.listed (printed : state.Printed) {bug : BugRecord} (among : bug ∈ state.listed project status) :
    ∃ time : UtcTime, bug.updatedAt = time.text := by
  obtain ⟨stored, kept, rfl⟩ := List.mem_map.1 among
  obtain ⟨id, found⟩ := HashMap.mem_values.1 (List.mem_of_mem_filter kept)
  exact printed id stored found

theorem recentFirst_of_le {a b : BugRecord} (le : b.updatedAt ≤ a.updatedAt) : RecentFirst a b := by
  intro time time' here there
  rw [here, there] at le
  exact (UtcTime.text_le_iff time' time).1 le

theorem rankingKey_le {a b : BugRecord} (le : a.rankingKey ≤ b.rankingKey) : a.triage < b.triage ∨ a.triage = b.triage ∧
    (b.failedAttemptCount < a.failedAttemptCount ∨ a.failedAttemptCount = b.failedAttemptCount ∧ a.updatedAt ≤ b.updatedAt) := by
  rcases Prod.Lex.le_iff.1 le with less | ⟨same, rest⟩
  · exact .inl less
  · right
    refine ⟨same, ?_⟩
    rcases Prod.Lex.le_iff.1 rest with more | ⟨equal, older⟩
    · left
      have failed : -(a.failedAttemptCount : Int) < -(b.failedAttemptCount : Int) := more
      omega
    · right
      have failed : -(a.failedAttemptCount : Int) = -(b.failedAttemptCount : Int) := equal
      exact ⟨by omega, older⟩

/-- In a listing in both orders, bugs of one triage are alike in the rest. -/
theorem alike_of_both {a b : BugRecord} (printed : ∃ time : UtcTime, a.updatedAt = time.text)
    (printed' : ∃ time : UtcTime, b.updatedAt = time.text) (le : a.rankingKey ≤ b.rankingKey) (ranks : RanksBefore a b)
    (same : a.triage = b.triage) : a.failedAttemptCount = b.failedAttemptCount ∧ a.updatedAt = b.updatedAt := by
  have notLess : ¬ a.triage < b.triage := by
    rw [same]
    exact lt_irrefl _
  obtain ⟨time, here⟩ := printed
  obtain ⟨time', there⟩ := printed'
  obtain ⟨_, fewer⟩ := ranks.resolve_left notLess
  obtain ⟨_, more⟩ := (rankingKey_le le).resolve_left notLess
  rcases more with more | ⟨equal, older⟩
  · rcases fewer with fewer | ⟨equal, _⟩ <;> omega
  · obtain ⟨_, recent⟩ := fewer.resolve_left (by omega)
    have newer : b.updatedAt ≤ a.updatedAt := by
      rw [here, there, UtcTime.text_le_iff]
      exact recent time time' here there
    exact ⟨equal, le_antisymm older newer⟩

theorem noTies_of_documented (printed : state.Printed) (documented : ListedAsDocumented state project status) :
    NoTies state project status := by
  have among {bug : BugRecord} : bug ∈ state.listBugs project status .rank ↔ bug ∈ state.listed project status :=
    (state.listBugs_perm project status .rank).mem_iff
  have sorted : (state.listBugs project status .rank).Pairwise fun a b => a.rankingKey ≤ b.rankingKey :=
    sortBy_pairwise BugRecord.rankingKey _
  let Alike (a b : BugRecord) : Prop := a.triage = b.triage →
    a.failedAttemptCount = b.failedAttemptCount ∧ a.updatedAt = b.updatedAt
  have both : (state.listBugs project status .rank).Pairwise Alike := by
    apply (sorted.and documented.ranked).imp_of_mem
    intro a b here there both
    exact alike_of_both (printed.listed (among.1 here)) (printed.listed (among.1 there)) both.1 both.2
  have : Std.Symm Alike := ⟨fun a b alike same => by
    obtain ⟨failed, updated⟩ := alike same.symm
    exact ⟨failed.symm, updated.symm⟩⟩
  intro a inList b inList' same
  exact both.forall_of_forall (fun _ _ _ => ⟨rfl, rfl⟩) (among.2 inList) (among.2 inList') same

theorem documented_of_noTies (noTies : NoTies state project status) : ListedAsDocumented state project status := by
  have among {bug : BugRecord} : bug ∈ state.listBugs project status .rank ↔ bug ∈ state.listed project status :=
    (state.listBugs_perm project status .rank).mem_iff
  constructor
  case rankedAll => exact state.listBugs_perm project status .rank
  case ranked =>
    apply (sortBy_pairwise BugRecord.rankingKey _).imp_of_mem
    intro a b here there le
    rcases rankingKey_le le with less | ⟨same, _⟩
    · exact .inl less
    · obtain ⟨failed, updated⟩ := noTies a (among.1 here) b (among.1 there) same
      exact .inr ⟨same, .inr ⟨failed, recentFirst_of_le updated.ge⟩⟩
  case updatedAll => exact state.listBugs_perm project status .updated
  case updated =>
    apply (sortBy_pairwise (fun bug : BugRecord => OrderDual.toDual bug.updatedAt) _).imp
    intro a b le
    exact recentFirst_of_le le
  case ready => exact state.readyBugs_eq project

theorem listed_iff (printed : state.Printed) : ListedAsDocumented state project status ↔ NoTies state project status :=
  ⟨noTies_of_documented printed, documented_of_noTies⟩

end Documented

section Demo

def noon : UtcTime := ⟨2026, 1, 1, 12, 0, 0, 500000000, by decide, by decide, by decide, by decide, by decide, by decide,
  by decide, by decide, by decide⟩

def lossReport (severity : BugSeverity) (difficulty : UInt8) : CanonicalBugReport :=
  ⟨"redlinedb", "veox", "adapter loses writes", none, "writes disappear", "writes persist", "local", "always",
    "blocks agents", "no security impact", true, [], [], [], severity, .p1, difficulty⟩

def readyBug (id : String) (difficulty : UInt8) : BugRecord :=
  { (lossReport .s1 difficulty).record ⟨fun _ => noon.text, fun _ => []⟩ id .ready 0 with updatedAt := noon.text }

def failedAttempt (bugId : String) : BugAttempt :=
  ⟨1, bugId, none, .failed, none, none, none, none, none, none, none, noon.text, noon.text⟩

/-- A store of two bugs that are ready, with one failed attempt at the second. -/
def twoReady (difficulty : UInt8) : State :=
  { State.default with
    bugs := ((∅ : HashMap String BugRecord).insert "bug-2" (readyBug "bug-2" difficulty)).insert "bug-1" (readyBug "bug-1" 3)
    attempts := [failedAttempt "bug-2"] }

theorem twoReady_printed (difficulty : UInt8) : (twoReady difficulty).Printed := by
  intro id bug found
  have known : (if id = "bug-1" then some (readyBug "bug-1" 3) else if id = "bug-2" then some (readyBug "bug-2" difficulty)
      else none) = some bug := by
    rw [← found]
    simp [twoReady, HashMap.lookup_insert_if]
  split at known
  · exact ⟨noon, by rw [← Option.some.inj known]; rfl⟩
  · split at known
    · exact ⟨noon, by rw [← Option.some.inj known]; rfl⟩
    · cases known

theorem listed_twoReady (difficulty : UInt8) : (twoReady difficulty).listed none none =
    [{ readyBug "bug-1" 3 with attemptCount := 0, failedAttemptCount := 0 },
      { readyBug "bug-2" difficulty with attemptCount := 1, failedAttemptCount := 1 }] := rfl

end Demo

theorem listed_demo : ListedAsDocumented (twoReady 4) none none := by
  apply (listed_iff (twoReady_printed 4)).2
  intro a inList b inList' same
  rw [listed_twoReady] at inList inList'
  rcases List.mem_pair.1 inList with rfl | rfl <;> rcases List.mem_pair.1 inList' with rfl | rfl
  · exact ⟨rfl, rfl⟩
  · exact absurd same (by decide)
  · exact absurd same (by decide)
  · exact ⟨rfl, rfl⟩

/-- The bug with the failed attempt comes first. -/
theorem failed_first : ((twoReady 3).listBugs none none .rank).map BugRecord.id = ["bug-2", "bug-1"] ∧
    ¬ ListedAsDocumented (twoReady 3) none none := by
  constructor
  · rfl
  · intro documented
    have noTies := noTies_of_documented (twoReady_printed 3) documented
    unfold NoTies at noTies
    rw [listed_twoReady] at noTies
    have counted := (noTies _ List.mem_cons_self _ (List.mem_cons_of_mem _ List.mem_cons_self) rfl).1
    cases counted

end Jeryu.Bugs
