import Jeryu.Library.SortedSet
import Jeryu.Mirror.Bundle

/-!
Drift between two archives. Six of the counted inventories are compared, of the last repository of
each name.
-/

namespace Jeryu.Mirror

open SortedSet

structure RepositoryDrift where
  repository : String
  issueDelta : Int
  pullRequestDelta : Int
  releaseDelta : Int
  artifactDelta : Int
  webhookDelta : Int
  protectedBranchDelta : Int
  deriving DecidableEq

structure MirrorDriftReport where
  sourceDigest : String
  targetDigest : String
  missingInTarget : List String
  extraInTarget : List String
  repositoryDrifts : List RepositoryDrift
  driftDetected : Bool
  deriving DecidableEq

/-- A `BTreeMap` of the repositories by name. -/
structure RepoMap where
  keys : List String
  get : String → Option RepositoryArchive

def repoMap (archive : Archive) : RepoMap where
  keys := ordered (archive.repositories.map RepositoryArchive.fullName)
  get name := archive.repositories.reverse.find? fun repo => repo.fullName = name

namespace RepositoryDrift

def between (name : String) (left right : RepositoryArchive) : RepositoryDrift where
  repository := name
  issueDelta := (right.issues.length : Int) - left.issues.length
  pullRequestDelta := (right.pullRequests.length : Int) - left.pullRequests.length
  releaseDelta := (right.releases.length : Int) - left.releases.length
  artifactDelta := (right.artifacts.length : Int) - left.artifacts.length
  webhookDelta := (right.webhooks.length : Int) - left.webhooks.length
  protectedBranchDelta := (right.protectedBranches.length : Int) - left.protectedBranches.length

def differs (drift : RepositoryDrift) : Prop :=
  drift.issueDelta ≠ 0 ∨ drift.pullRequestDelta ≠ 0 ∨ drift.releaseDelta ≠ 0 ∨ drift.artifactDelta ≠ 0 ∨
    drift.webhookDelta ≠ 0 ∨ drift.protectedBranchDelta ≠ 0

instance (drift : RepositoryDrift) : Decidable drift.differs := inferInstanceAs (Decidable (_ ∨ _))

def negated (drift : RepositoryDrift) : RepositoryDrift :=
  ⟨drift.repository, -drift.issueDelta, -drift.pullRequestDelta, -drift.releaseDelta, -drift.artifactDelta,
    -drift.webhookDelta, -drift.protectedBranchDelta⟩

theorem between_negated (name : String) (left right : RepositoryArchive) :
    between name right left = (between name left right).negated := by
  simp [between, negated, Int.neg_sub]

theorem negated_differs (drift : RepositoryDrift) : drift.negated.differs ↔ drift.differs := by
  simp [negated, differs]

end RepositoryDrift

section Compare

variable (encoding : Encoding) (source target : Archive)

def driftOf (name : String) : Option RepositoryDrift := do
  let left ← (repoMap source).get name
  let right ← (repoMap target).get name
  let drift := RepositoryDrift.between name left right
  if drift.differs then some drift else none

def compareArchives : MirrorDriftReport :=
  let sourceNames := (repoMap source).keys
  let targetNames := (repoMap target).keys
  let missing := sourceNames.filter fun name => !targetNames.contains name
  let extra := targetNames.filter fun name => !sourceNames.contains name
  let drifts := (sourceNames.filter fun name => targetNames.contains name).filterMap (driftOf source target)
  { sourceDigest := source.canonicalDigest encoding
    targetDigest := target.canonicalDigest encoding
    missingInTarget := missing
    extraInTarget := extra
    repositoryDrifts := drifts
    driftDetected := !missing.isEmpty || !extra.isEmpty || !drifts.isEmpty }

/-- The report seen from the other side. -/
def MirrorDriftReport.swapped (report : MirrorDriftReport) : MirrorDriftReport :=
  ⟨report.targetDigest, report.sourceDigest, report.extraInTarget, report.missingInTarget,
    report.repositoryDrifts.map RepositoryDrift.negated, report.driftDetected⟩

theorem driftOf_swapped (name : String) :
    driftOf target source name = (driftOf source target name).map RepositoryDrift.negated := by
  unfold driftOf
  cases (repoMap source).get name with
  | none => cases (repoMap target).get name <;> rfl
  | some left =>
    cases (repoMap target).get name with
    | none => rfl
    | some right =>
      show (if (RepositoryDrift.between name right left).differs then _ else _) =
        Option.map _ (if (RepositoryDrift.between name left right).differs then _ else _)
      rw [RepositoryDrift.between_negated name left right]
      simp only [RepositoryDrift.negated_differs]
      split <;> rfl

/-- The names that both archives have, in order. -/
theorem shared_names : ((repoMap source).keys.filter fun name => (repoMap target).keys.contains name) =
    (repoMap target).keys.filter fun name => (repoMap source).keys.contains name := by
  apply eq_of_pairwise
  · exact (ordered_pairwise _).filter _
  · exact (ordered_pairwise _).filter _
  · intro name
    simp [and_comm]

theorem compareArchives_swapped : compareArchives encoding target source = (compareArchives encoding source target).swapped := by
  have drifts : ((repoMap target).keys.filter fun name => (repoMap source).keys.contains name).filterMap (driftOf target source) =
      (((repoMap source).keys.filter fun name => (repoMap target).keys.contains name).filterMap (driftOf source target)).map
        RepositoryDrift.negated := by
    rw [shared_names, List.map_filterMap]
    congr 1
    funext name
    exact driftOf_swapped source target name
  unfold compareArchives MirrorDriftReport.swapped
  simp only [drifts, List.isEmpty_map, Bool.or_comm]

/-- The inventories that are compared are as long on both sides. -/
structure SixAlike (left right : RepositoryArchive) : Prop where
  issues : left.issues.length = right.issues.length
  pullRequests : left.pullRequests.length = right.pullRequests.length
  releases : left.releases.length = right.releases.length
  artifacts : left.artifacts.length = right.artifacts.length
  webhooks : left.webhooks.length = right.webhooks.length
  protectedBranches : left.protectedBranches.length = right.protectedBranches.length

/-- The archives agree in all that is compared. -/
structure Agree : Prop where
  names : ∀ repo : String, repo ∈ (repoMap source).keys ↔ repo ∈ (repoMap target).keys
  inventories : ∀ name left right, (repoMap source).get name = some left → (repoMap target).get name = some right →
    SixAlike left right

theorem between_differs_iff (name : String) (left right : RepositoryArchive) :
    ¬ (RepositoryDrift.between name left right).differs ↔ SixAlike left right := by
  constructor
  · intro same
    simp only [RepositoryDrift.differs, RepositoryDrift.between] at same
    constructor <;> omega
  · rintro ⟨_, _, _, _, _, _⟩
    simp only [RepositoryDrift.differs, RepositoryDrift.between]
    omega

theorem mem_of_get (archive : Archive) {name : String} {repo : RepositoryArchive}
    (found : (repoMap archive).get name = some repo) : name ∈ (repoMap archive).keys := by
  have among : repo ∈ archive.repositories := List.mem_reverse.1 (List.mem_of_find?_eq_some found)
  have named : repo.fullName = name := by simpa using List.find?_some found
  exact mem_ordered.2 (List.mem_map.2 ⟨repo, among, named⟩)

theorem driftOf_none_iff (name : String) : driftOf source target name = none ↔
    ∀ left right, (repoMap source).get name = some left → (repoMap target).get name = some right → SixAlike left right := by
  unfold driftOf
  cases (repoMap source).get name with
  | none => simp
  | some left =>
    cases (repoMap target).get name with
    | none => simp
    | some right => simp [← between_differs_iff name left right]

theorem detected_iff : (compareArchives encoding source target).driftDetected = false ↔ Agree source target := by
  have missing : ((repoMap source).keys.filter fun name => !(repoMap target).keys.contains name).isEmpty = true ↔
      ∀ name ∈ (repoMap source).keys, name ∈ (repoMap target).keys := by simp
  have extra : ((repoMap target).keys.filter fun name => !(repoMap source).keys.contains name).isEmpty = true ↔
      ∀ name ∈ (repoMap target).keys, name ∈ (repoMap source).keys := by simp
  have drifts : (((repoMap source).keys.filter fun name => (repoMap target).keys.contains name).filterMap
      (driftOf source target)).isEmpty = true ↔
        ∀ name ∈ (repoMap source).keys, name ∈ (repoMap target).keys → driftOf source target name = none := by simp
  have whole : (compareArchives encoding source target).driftDetected = false ↔
      (∀ name ∈ (repoMap source).keys, name ∈ (repoMap target).keys) ∧
        (∀ name ∈ (repoMap target).keys, name ∈ (repoMap source).keys) ∧
          ∀ name ∈ (repoMap source).keys, name ∈ (repoMap target).keys → driftOf source target name = none := by
    rw [← missing, ← extra, ← drifts]
    simp only [compareArchives, Bool.or_eq_false_iff, Bool.not_eq_false', and_assoc]
  rw [whole]
  constructor
  · rintro ⟨forth, back, alike⟩
    refine ⟨fun name => ⟨forth name, back name⟩, fun name left right found found' => ?_⟩
    exact (driftOf_none_iff source target name).1 (alike name (mem_of_get source found) (mem_of_get target found'))
      left right found found'
  · rintro ⟨names, alike⟩
    exact ⟨fun name => (names name).1, fun name => (names name).2,
      fun name _ _ => (driftOf_none_iff source target name).2 (alike name)⟩

end Compare

section Inventories

def RepositoryArchive.counts (repo : RepositoryArchive) : ArchiveCounts where
  repositories := 1
  issues := repo.issues.length
  pullRequests := repo.pullRequests.length
  labels := repo.labels.length
  milestones := repo.milestones.length
  releases := repo.releases.length
  releaseAssets := (repo.releases.map fun release => release.assets.length).sum
  artifacts := repo.artifacts.length
  webhooks := repo.webhooks.length
  appInstallations := repo.appInstallations.length
  protectedBranches := repo.protectedBranches.length

/-- The counts of the repositories, each on its own. -/
def Archive.inventory (archive : Archive) : List (String × ArchiveCounts) :=
  archive.repositories.map fun repo => (repo.fullName, repo.counts)

def Archive.named (archive : Archive) (name : String) : List RepositoryArchive :=
  archive.repositories.filter fun repo => repo.fullName = name

/-- The counts of all the repositories of one name. -/
def Archive.collected (archive : Archive) (name : String) : List ArchiveCounts :=
  (archive.named name).map RepositoryArchive.counts

def totals (inventory : List (String × ArchiveCounts)) : ArchiveCounts :=
  let total (count : ArchiveCounts → Nat) := (inventory.map fun entry => count entry.2).sum
  ⟨inventory.length, total ArchiveCounts.issues, total ArchiveCounts.pullRequests, total ArchiveCounts.labels,
    total ArchiveCounts.milestones, total ArchiveCounts.releases, total ArchiveCounts.releaseAssets,
    total ArchiveCounts.artifacts, total ArchiveCounts.webhooks, total ArchiveCounts.appInstallations,
    total ArchiveCounts.protectedBranches⟩

theorem counts_eq_totals (archive : Archive) : archive.counts = totals archive.inventory := by
  simp [Archive.counts, totals, Archive.inventory, RepositoryArchive.counts, Function.comp_def]

theorem totals_of_perm {inventory inventory' : List (String × ArchiveCounts)} (perm : inventory.Perm inventory') :
    totals inventory = totals inventory' := by
  have total (count : ArchiveCounts → Nat) :
      (inventory.map fun entry => count entry.2).sum = (inventory'.map fun entry => count entry.2).sum := (perm.map _).sum_nat
  simp only [totals, perm.length_eq, total]

theorem count_inventory (archive : Archive) (name : String) (counts : ArchiveCounts) :
    archive.inventory.count (name, counts) = (archive.collected name).count counts := by
  unfold Archive.inventory Archive.collected Archive.named
  induction archive.repositories with
  | nil => rfl
  | cons repo rest ih =>
    by_cases named : repo.fullName = name
    · simp [List.count_cons, named, ih]
    · simp [named, ih]

theorem inventory_perm_iff (source target : Archive) : source.inventory.Perm target.inventory ↔
    ∀ name, (source.collected name).Perm (target.collected name) := by
  simp only [List.perm_iff_count, ← count_inventory]
  constructor
  · exact fun same name counts => same (name, counts)
  · exact fun same entry => same entry.1 entry.2

end Inventories

section Faithful

variable (encoding : Encoding) (source target : Archive)

/-- No drift means equal inventories. -/
structure FaithfulDrift : Prop where
  swapped : compareArchives encoding target source = (compareArchives encoding source target).swapped
  reflexive : source = target → (compareArchives encoding source target).driftDetected = false
  names : (compareArchives encoding source target).driftDetected = false →
    (source.repositories.map RepositoryArchive.fullName).Perm (target.repositories.map RepositoryArchive.fullName)
  inventories : (compareArchives encoding source target).driftDetected = false → source.inventory.Perm target.inventory
  counts : (compareArchives encoding source target).driftDetected = false → source.counts = target.counts

/-- The counts that are not compared. -/
def RepositoryArchive.aside (repo : RepositoryArchive) : Nat × Nat × Nat × Nat :=
  (repo.counts.labels, repo.counts.milestones, repo.counts.releaseAssets, repo.counts.appInstallations)

/-- The one repository of a name differs in what is not compared, or the several of a name do not count the same. -/
def Misses (name : String) : Prop :=
  match source.named name, target.named name with
  | [left], [right] => left.aside ≠ right.aside
  | lefts, rights => ¬ (lefts.map RepositoryArchive.counts).Perm (rights.map RepositoryArchive.counts)

/-- The archives agree in all that is compared, and differ in something else. -/
def Overlooks : Prop := Agree source target ∧ ∃ name, Misses source target name

theorem get_of_named {archive : Archive} {name : String} {repo : RepositoryArchive} (only : archive.named name = [repo]) :
    (repoMap archive).get name = some repo := by
  have reversed : (archive.repositories.reverse.filter fun repo => repo.fullName = name) = [repo] := by
    rw [List.filter_reverse]
    exact congrArg List.reverse only
  show archive.repositories.reverse.find? _ = _
  rw [← List.head?_filter, reversed]
  rfl

theorem counts_eq_iff {left right : RepositoryArchive} (alike : SixAlike left right) :
    left.counts = right.counts ↔ left.aside = right.aside := by
  obtain ⟨issues, pullRequests, releases, artifacts, webhooks, protectedBranches⟩ := alike
  simp [RepositoryArchive.aside, RepositoryArchive.counts, issues, pullRequests, releases, artifacts, webhooks,
    protectedBranches]

variable {source target} in
theorem misses_iff (agree : Agree source target) (name : String) :
    Misses source target name ↔ ¬ (source.collected name).Perm (target.collected name) := by
  unfold Misses Archive.collected
  split
  next left right only only' =>
    have alike := agree.inventories name left right (get_of_named only) (get_of_named only')
    rw [only, only', List.map_singleton, List.map_singleton, List.singleton_perm_singleton, counts_eq_iff alike]
  next => rfl

theorem agree_self (archive : Archive) : Agree archive archive where
  names _ := Iff.rfl
  inventories name left right found found' := by
    obtain rfl := Option.some.inj (found.symm.trans found')
    exact ⟨rfl, rfl, rfl, rfl, rfl, rfl⟩

theorem faithful_drift_iff : FaithfulDrift encoding source target ↔ ¬ Overlooks source target := by
  constructor
  · rintro faithful ⟨agree, name, missed⟩
    have perm := faithful.inventories ((detected_iff encoding source target).2 agree)
    exact (misses_iff agree name).1 missed ((inventory_perm_iff source target).1 perm name)
  · intro seen
    have perm (clean : (compareArchives encoding source target).driftDetected = false) :
        source.inventory.Perm target.inventory := by
      have agree := (detected_iff encoding source target).1 clean
      rw [inventory_perm_iff]
      intro name
      by_contra differ
      exact seen ⟨agree, name, (misses_iff agree name).2 differ⟩
    constructor
    case swapped => exact compareArchives_swapped encoding source target
    case reflexive =>
      rintro rfl
      exact (detected_iff encoding source source).2 (agree_self source)
    case names =>
      intro clean
      have named := (perm clean).map Prod.fst
      simpa [Archive.inventory, Function.comp_def] using named
    case inventories => exact perm
    case counts =>
      intro clean
      rw [counts_eq_totals, counts_eq_totals, totals_of_perm (perm clean)]

end Faithful

section Demo

def rocketLabelled (labels : List LabelArchive) : RepositoryArchive :=
  ⟨"acme", "rocket", none, .privately, "main", false, false, none, labels, [], [], [], [], [], [], [], [], none⟩

def holding (repositories : List RepositoryArchive) : Archive :=
  { Archive.new ⟨0, 0⟩ .gitHub "github-export" with repositories }

def blankEncoding : Encoding := ⟨fun _ => [], fun _ => [], fun _ => "", fun _ => ""⟩

theorem labels_agree (labels labels' : List LabelArchive) :
    Agree (holding [rocketLabelled labels]) (holding [rocketLabelled labels']) where
  names _ := Iff.rfl
  inventories name left right found found' := by
    have here : left = rocketLabelled labels := by
      simpa [repoMap, holding] using List.mem_of_find?_eq_some found
    have there : right = rocketLabelled labels' := by
      simpa [repoMap, holding] using List.mem_of_find?_eq_some found'
    rw [here, there]
    exact ⟨rfl, rfl, rfl, rfl, rfl, rfl⟩

end Demo

/-- The label is lost on the way, and no drift is seen. -/
theorem lost_label_overlooked :
    ¬ FaithfulDrift blankEncoding (holding [rocketLabelled [⟨"bug", none, none⟩]]) (holding [rocketLabelled []]) := by
  intro faithful
  have counts := faithful.counts ((detected_iff _ _ _).2 (labels_agree _ _))
  cases congrArg ArchiveCounts.labels counts

end Jeryu.Mirror
