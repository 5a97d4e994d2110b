import Jeryu.Library.Latest
import Mathlib.Algebra.Order.Field.Rat
import Mathlib.Data.Finset.Card
import Mathlib.Data.Prod.Lex
import Mathlib.Tactic.NormNum

/-!
Pull-request overlap detection and routing.
-/

namespace Jeryu.Core

open Latest

structure ChangeSet where
  changedFiles : List String
  baseSha : String
  author : Option String
  deriving DecidableEq

structure OpenPr where
  number : Nat
  changedFiles : List String
  baseSha : String
  headProofOk : Bool
  deriving DecidableEq

/-- An `f64`, a finite one by its exact value. -/
inductive Double where
  | nan
  | infinite (negative : Bool)
  | finite (value : ℚ)
  deriving DecidableEq

structure OverlapConfig where
  threshold : Double
  deriving DecidableEq

/-- Clamped into `[0, 1]`; none is not a number. -/
def OverlapConfig.effectiveThreshold (cfg : OverlapConfig) : Option ℚ :=
  match cfg.threshold with
  | .nan => none
  | .infinite negative => some (if negative then 0 else 1)
  | .finite value => some (if value < 0 then 0 else if 1 < value then 1 else value)

inductive OverlapDecision where
  | routeToExisting (pr : Nat) (reason : String)
  | createNew (reason : String)
  | refuseCoalesce (pr : Nat) (reason : String)
  deriving DecidableEq

structure OverlapScore where
  pr : Nat
  jaccard : ℚ
  baseMatches : Bool
  headProofOk : Bool
  deriving DecidableEq

structure OverlapRouting where
  threshold : Option ℚ
  changeBaseSha : String
  scores : List OverlapScore
  decision : OverlapDecision
  deriving DecidableEq

/-- Duplicate paths count once; two empty sets do not overlap. -/
def jaccard (a b : List String) : ℚ :=
  if a.toFinset = ∅ ∧ b.toFinset = ∅ then 0
  else ((a.toFinset ∩ b.toFinset).card : ℚ) / (a.toFinset ∪ b.toFinset).card

/-- `{:.2}`: the nearest number of hundredths, the even one of two as near. -/
def hundredths (value : ℚ) : Nat :=
  let below := (value * 100).floor
  let left := value * 100 - below
  let nearest := if left < 1 / 2 then below
    else if 1 / 2 < left then below + 1
    else if below % 2 = 0 then below
    else below + 1
  nearest.toNat

def fixed2 (value : ℚ) : String :=
  let cents := hundredths value
  let rest := if cents % 100 < 10 then s!"0{cents % 100}" else s!"{cents % 100}"
  s!"{cents / 100}.{rest}"

/-- `partial_cmp` of the overlaps, the lower number last of those as high. -/
def OverlapScore.compare (x y : OverlapScore) : Ordering :=
  (cmp x.jaccard y.jaccard).then (cmp y.pr x.pr)

def decideFromScores (change : ChangeSet) (openPrs : List OpenPr) (threshold : Option ℚ)
    (scores : List OverlapScore) : OverlapDecision :=
  if openPrs.isEmpty then .createNew "no open pull requests to coalesce onto"
  else match maxBy OverlapScore.compare (scores.filter fun s => threshold.any (· ≤ s.jaccard)) with
    | none =>
      let bound := threshold.elim "NaN" fixed2
      .createNew s!"no open PR overlaps the change at or above threshold {bound}; opening a fresh PR"
    | some best =>
      let overlap := fixed2 best.jaccard
      if !best.baseMatches then
        let prBase := ((openPrs.find? (·.number = best.pr)).map OpenPr.baseSha).getD ""
        .refuseCoalesce best.pr
          s!"PR #{best.pr} overlaps at {overlap} but its base {prBase} differs from the change base {change.baseSha}; refusing to coalesce onto a diverged base"
      else if !best.headProofOk then
        .refuseCoalesce best.pr
          s!"PR #{best.pr} overlaps at {overlap} but its head proof is not green; refusing to stack work on an unverified head"
      else
        let bound := threshold.elim "NaN" fixed2
        .routeToExisting best.pr
          s!"PR #{best.pr} is the highest-overlap open PR at {overlap} (>= {bound}) with a matching base and green head proof; hot-fixing it instead of opening a new PR"

def OpenPr.score (change : ChangeSet) (pr : OpenPr) : OverlapScore :=
  { pr := pr.number, jaccard := jaccard change.changedFiles pr.changedFiles
    baseMatches := pr.baseSha = change.baseSha, headProofOk := pr.headProofOk }

/-- The decision, with every candidate's score. -/
def route (change : ChangeSet) (openPrs : List OpenPr) (cfg : OverlapConfig) : OverlapRouting :=
  let threshold := cfg.effectiveThreshold
  let scores := openPrs.map (OpenPr.score change)
  { threshold, changeBaseSha := change.baseSha, scores
    decision := decideFromScores change openPrs threshold scores }

section Scores

variable {change : ChangeSet} {openPrs : List OpenPr} {p q : OpenPr} {a b : List String}

theorem jaccard_nonneg : 0 ≤ jaccard a b := by
  unfold jaccard
  split
  · exact le_refl 0
  · exact div_nonneg (Nat.cast_nonneg _) (Nat.cast_nonneg _)

/-- Sets overlap where they share a path. -/
theorem jaccard_pos_iff : 0 < jaccard a b ↔ ∃ path ∈ a, path ∈ b := by
  have shared : (∃ path ∈ a, path ∈ b) ↔ (a.toFinset ∩ b.toFinset).Nonempty := by
    constructor
    · intro common
      obtain ⟨path, left, right⟩ := common
      exact ⟨path, Finset.mem_inter.mpr ⟨List.mem_toFinset.mpr left, List.mem_toFinset.mpr right⟩⟩
    · intro common
      obtain ⟨path, member⟩ := common
      have both := Finset.mem_inter.mp member
      exact ⟨path, List.mem_toFinset.mp both.1, List.mem_toFinset.mp both.2⟩
  rw [shared]
  unfold jaccard
  by_cases empty : a.toFinset = ∅ ∧ b.toFinset = ∅
  · rw [if_pos empty, empty.1]
    simp
  · rw [if_neg empty]
    constructor
    · intro positive
      apply Finset.card_pos.mp
      by_contra none
      have zero : (a.toFinset ∩ b.toFinset).card = 0 := by omega
      rw [zero] at positive
      simp at positive
    · intro common
      have some := Finset.card_pos.mpr common
      have fewer : (a.toFinset ∩ b.toFinset).card ≤ (a.toFinset ∪ b.toFinset).card :=
        Finset.card_le_card (Finset.inter_subset_left.trans Finset.subset_union_left)
      exact div_pos (Nat.cast_pos.mpr some) (Nat.cast_pos.mpr (by omega))

/-- The higher overlap, and of equal ones the lower number. -/
def OverlapScore.rank (s : OverlapScore) : ℚ ×ₗ ℕᵒᵈ := toLex (s.jaccard, OrderDual.toDual s.pr)

theorem compare_gt_iff (x y : OverlapScore) : x.compare y = .gt ↔ y.rank < x.rank := by
  have ranked : y.rank < x.rank ↔ y.jaccard < x.jaccard ∨ y.jaccard = x.jaccard ∧ x.pr < y.pr :=
    Prod.Lex.toLex_lt_toLex
  rw [ranked]
  unfold OverlapScore.compare
  rw [Ordering.then_eq_gt, cmp_eq_gt_iff, cmp_eq_eq_iff, cmp_eq_gt_iff]
  exact or_congr_right (and_congr_left' eq_comm)

theorem rank_le_iff (x y : OverlapScore) :
    x.rank ≤ y.rank ↔ ¬(y.jaccard < x.jaccard) ∧ ¬(x.jaccard = y.jaccard ∧ x.pr < y.pr) := by
  have ranked : y.rank < x.rank ↔ y.jaccard < x.jaccard ∨ y.jaccard = x.jaccard ∧ x.pr < y.pr :=
    Prod.Lex.toLex_lt_toLex
  rw [← not_lt, ranked, not_or, eq_comm]

theorem threshold_nonneg {cfg : OverlapConfig} {t : ℚ} (clamped : cfg.effectiveThreshold = some t) :
    0 ≤ t := by
  unfold OverlapConfig.effectiveThreshold at clamped
  split at clamped
  · cases clamped
  · next negative _ =>
    cases clamped
    cases negative <;> norm_num
  · cases clamped
    split
    · exact le_refl 0
    · next nonneg =>
      split
      · exact zero_le_one
      · exact not_lt.mp nonneg

end Scores

section Decisions

variable {change : ChangeSet} {openPrs openPrs' : List OpenPr} {cfg : OverlapConfig} {p q : OpenPr}

/-- The candidate the decision is about. -/
def bestScore (change : ChangeSet) (openPrs : List OpenPr) (threshold : Option ℚ) : Option OverlapScore :=
  maxBy OverlapScore.compare
    ((openPrs.map (OpenPr.score change)).filter fun s => threshold.any (· ≤ s.jaccard))

def overlap (change : ChangeSet) (pr : OpenPr) : ℚ := jaccard change.changedFiles pr.changedFiles

/-- No other candidate overlaps more, or as much under a lower number. -/
structure Foremost (change : ChangeSet) (openPrs : List OpenPr) (p : OpenPr) : Prop where
  listed : p ∈ openPrs
  higher : ∀ q ∈ openPrs, ¬overlap change p < overlap change q
  lower : ∀ q ∈ openPrs, ¬(overlap change q = overlap change p ∧ q.number < p.number)

theorem bestScore_eq {threshold : Option ℚ} : bestScore change openPrs threshold =
    latest OverlapScore.rank
      ((openPrs.map (OpenPr.score change)).filter fun s => threshold.any (· ≤ s.jaccard)) :=
  maxBy_eq_latest compare_gt_iff

/-- The candidate chosen is foremost, and at or above the threshold. -/
theorem bestScore_foremost {threshold : Option ℚ} {best : OverlapScore}
    (found : bestScore change openPrs threshold = some best) :
    ∃ p, Foremost change openPrs p ∧ p.score change = best ∧ ∃ t, threshold = some t ∧ t ≤ overlap change p := by
  rw [bestScore_eq] at found
  have member := latest_mem found
  obtain ⟨scored, above⟩ := List.mem_filter.mp member
  obtain ⟨p, listed, rfl⟩ := List.mem_map.mp scored
  obtain ⟨t, known, reached⟩ := (Option.any_eq_true _ _).mp above
  have reaches : t ≤ overlap change p := of_decide_eq_true reached
  have ranked (q : OpenPr) (there : q ∈ openPrs) : (q.score change).rank ≤ (p.score change).rank := by
    by_cases high : t ≤ overlap change q
    · apply latest_greatest found
      apply List.mem_filter.mpr
      refine ⟨List.mem_map_of_mem there, ?_⟩
      rw [known]
      exact decide_eq_true high
    · have below : overlap change q < overlap change p := lt_of_lt_of_le (not_le.mp high) reaches
      exact (rank_le_iff _ _).mpr ⟨not_lt.mpr below.le, fun same => absurd same.1 below.ne⟩
  refine ⟨p, ⟨listed, fun q there => ?_, fun q there => ?_⟩, rfl, t, known, reaches⟩
  · exact ((rank_le_iff _ _).mp (ranked q there)).1
  · exact ((rank_le_iff _ _).mp (ranked q there)).2

theorem bestScore_some {threshold : Option ℚ} {t : ℚ} (known : threshold = some t) (there : q ∈ openPrs)
    (above : t ≤ overlap change q) : ∃ best, bestScore change openPrs threshold = some best := by
  rw [bestScore_eq]
  apply Option.ne_none_iff_exists'.mp
  intro none
  have empty := latest_eq_none.mp none
  have member : q.score change ∈
      (openPrs.map (OpenPr.score change)).filter fun s => threshold.any (· ≤ s.jaccard) := by
    apply List.mem_filter.mpr
    refine ⟨List.mem_map_of_mem there, ?_⟩
    rw [known]
    exact decide_eq_true above
  rw [empty] at member
  cases member

theorem same_of_number (distinct : (openPrs.map OpenPr.number).Nodup) (left : p ∈ openPrs)
    (right : q ∈ openPrs) (same : p.number = q.number) : p = q :=
  List.inj_on_of_nodup_map distinct left right same

theorem bestScore_perm {threshold : Option ℚ} (distinct : (openPrs.map OpenPr.number).Nodup)
    (same : openPrs.Perm openPrs') :
    bestScore change openPrs threshold = bestScore change openPrs' threshold := by
  rw [bestScore_eq, bestScore_eq]
  refine latest_perm ((same.map _).filter _) fun row member other member' tied => ?_
  obtain ⟨p, listed, rfl⟩ := List.mem_map.mp (List.mem_of_mem_filter member)
  obtain ⟨q, listed', rfl⟩ := List.mem_map.mp (List.mem_of_mem_filter member')
  have numbers : p.number = q.number := by
    have pair := toLex.injective tied
    exact OrderDual.toDual.injective (congrArg Prod.snd pair)
  rw [same_of_number distinct listed listed' numbers]

theorem find_number_perm (distinct : (openPrs.map OpenPr.number).Nodup) (same : openPrs.Perm openPrs')
    (n : Nat) : openPrs.find? (·.number = n) = openPrs'.find? (·.number = n) := by
  cases found : openPrs.find? (·.number = n) with
  | none =>
    symm
    apply List.find?_eq_none.mpr
    intro q member
    exact List.find?_eq_none.mp found q (same.mem_iff.mpr member)
  | some p =>
    have named : p.number = n := by simpa using List.find?_some found
    have listed := List.mem_of_find?_eq_some found
    cases found' : openPrs'.find? (·.number = n) with
    | none => exact absurd (List.find?_eq_none.mp found' p (same.mem_iff.mp listed)) (by simp [named])
    | some q =>
      have named' : q.number = n := by simpa using List.find?_some found'
      have listed' := same.mem_iff.mpr (List.mem_of_find?_eq_some found')
      rw [same_of_number distinct listed listed' (named.trans named'.symm)]

theorem route_perm (distinct : (openPrs.map OpenPr.number).Nodup) (same : openPrs.Perm openPrs') :
    (route change openPrs cfg).decision = (route change openPrs' cfg).decision := by
  have best : bestScore change openPrs cfg.effectiveThreshold =
      bestScore change openPrs' cfg.effectiveThreshold := bestScore_perm distinct same
  have empty : openPrs.isEmpty = openPrs'.isEmpty := by
    cases openPrs with
    | nil => rw [List.nil_perm.mp same]
    | cons p rest =>
      cases openPrs' with
      | nil => exact absurd (List.perm_nil.mp same) (List.cons_ne_nil p rest)
      | cons q rest' => rfl
  unfold bestScore at best
  simp only [route, decideFromScores]
  rw [best, empty]
  split
  · rfl
  · split
    · rfl
    · rw [find_number_perm distinct same]

/-- What the decision says of the candidate it names. -/
theorem decision_cases :
    (bestScore change openPrs cfg.effectiveThreshold = none ∧
      ∃ reason, (route change openPrs cfg).decision = .createNew reason) ∨
    ∃ best reason, bestScore change openPrs cfg.effectiveThreshold = some best ∧
      ((best.baseMatches = true ∧ best.headProofOk = true ∧
          (route change openPrs cfg).decision = .routeToExisting best.pr reason) ∨
        ((best.baseMatches = false ∨ best.headProofOk = false) ∧
          (route change openPrs cfg).decision = .refuseCoalesce best.pr reason)) := by
  simp only [route, decideFromScores, bestScore]
  cases openPrs with
  | nil => exact .inl ⟨rfl, _, rfl⟩
  | cons first others =>
    rw [if_neg (by simp)]
    cases maxBy OverlapScore.compare (((first :: others).map (OpenPr.score change)).filter
        fun s => cfg.effectiveThreshold.any (· ≤ s.jaccard)) with
    | none => exact .inl ⟨rfl, _, rfl⟩
    | some best =>
      right
      cases based : best.baseMatches with
      | false => exact ⟨best, _, rfl, .inr ⟨.inl based, by simp only [based]; rfl⟩⟩
      | true =>
        cases proven : best.headProofOk with
        | false => exact ⟨best, _, rfl, .inr ⟨.inr proven, by simp only [based, proven]; rfl⟩⟩
        | true => exact ⟨best, _, rfl, .inl ⟨based, proven, by simp only [based, proven]; rfl⟩⟩

/-- Routing depends on no order, routes only where it is safe, and names the foremost candidate. -/
structure Conservative (change : ChangeSet) (openPrs : List OpenPr) (cfg : OverlapConfig) : Prop where
  stable : ∀ openPrs', openPrs'.Perm openPrs →
    (route change openPrs' cfg).decision = (route change openPrs cfg).decision
  routed : ∀ pr reason, (route change openPrs cfg).decision = .routeToExisting pr reason →
    ∃ p, p.number = pr ∧ Foremost change openPrs p ∧ p.baseSha = change.baseSha ∧ p.headProofOk = true ∧
      ∃ path ∈ change.changedFiles, path ∈ p.changedFiles
  refused : ∀ pr reason, (route change openPrs cfg).decision = .refuseCoalesce pr reason →
    ∃ p, p.number = pr ∧ Foremost change openPrs p ∧ (p.baseSha ≠ change.baseSha ∨ p.headProofOk = false)
  empty : change.changedFiles = [] → ∀ pr reason,
    (route change openPrs cfg).decision ≠ .routeToExisting pr reason

/-- A threshold of zero that every candidate reaches, and nothing against the lowest of them. -/
structure Unrelated (change : ChangeSet) (openPrs : List OpenPr) (cfg : OverlapConfig) : Prop where
  threshold : cfg.effectiveThreshold = some 0
  apart : ∀ q ∈ openPrs, ∀ path ∈ change.changedFiles, path ∉ q.changedFiles
  lowest : ∃ p ∈ openPrs, p.baseSha = change.baseSha ∧ p.headProofOk = true ∧
    ∀ q ∈ openPrs, p.number ≤ q.number

theorem overlap_zero (apart : ∀ path ∈ change.changedFiles, path ∉ q.changedFiles) :
    overlap change q = 0 := by
  have not_pos : ¬0 < overlap change q := fun positive => by
    obtain ⟨path, left, right⟩ := jaccard_pos_iff.mp positive
    exact apart path left right
  exact le_antisymm (not_lt.mp not_pos) jaccard_nonneg

/-- A route to a candidate without a path of the change. -/
theorem unrelated_of_foremost {t : ℚ} (foremost : Foremost change openPrs p)
    (based : p.baseSha = change.baseSha) (proven : p.headProofOk = true)
    (known : cfg.effectiveThreshold = some t) (reached : t ≤ overlap change p)
    (apart : ∀ path ∈ change.changedFiles, path ∉ p.changedFiles) : Unrelated change openPrs cfg := by
  have zero := overlap_zero apart
  have others (q : OpenPr) (there : q ∈ openPrs) : overlap change q = 0 := by
    have low := foremost.higher q there
    rw [zero] at low
    exact le_antisymm (not_lt.mp low) jaccard_nonneg
  constructor
  · rw [zero] at reached
    rw [known, le_antisymm reached (threshold_nonneg known)]
  · intro q there path left right
    have positive : 0 < overlap change q := jaccard_pos_iff.mpr ⟨path, left, right⟩
    rw [others q there] at positive
    exact lt_irrefl 0 positive
  · refine ⟨p, foremost.listed, based, proven, fun q there => ?_⟩
    have lower := foremost.lower q there
    rw [others q there, zero] at lower
    exact not_lt.mp fun less => lower ⟨rfl, less⟩

/-- Such a route is taken. -/
theorem Unrelated.routes (unrelated : Unrelated change openPrs cfg)
    (distinct : (openPrs.map OpenPr.number).Nodup) :
    ∃ p reason, p ∈ openPrs ∧ (route change openPrs cfg).decision = .routeToExisting p.number reason := by
  obtain ⟨p, listed, based, proven, lowest⟩ := unrelated.lowest
  have zero (q : OpenPr) (there : q ∈ openPrs) : overlap change q = 0 :=
    overlap_zero (unrelated.apart q there)
  obtain ⟨best, found⟩ := bestScore_some unrelated.threshold listed (zero p listed).ge
  obtain ⟨q, foremost, scored, -⟩ := bestScore_foremost found
  have same : q = p := by
    apply same_of_number distinct foremost.listed listed
    have lower := foremost.lower p listed
    rw [zero p listed, zero q foremost.listed] at lower
    have le : q.number ≤ p.number := not_lt.mp fun less => lower ⟨rfl, less⟩
    exact le_antisymm le (lowest q foremost.listed)
  subst same
  have matched : best.baseMatches = true := by
    rw [← scored]
    exact decide_eq_true based
  have green : best.headProofOk = true := by
    rw [← scored]
    exact proven
  rcases @decision_cases change openPrs cfg with
    ⟨none, -⟩ | ⟨other, reason, chosen, ⟨-, -, routed⟩ | ⟨amiss, -⟩⟩
  · rw [none] at found
    cases found
  · cases chosen.symm.trans found
    refine ⟨q, reason, listed, ?_⟩
    rw [routed, ← scored]
    rfl
  · cases chosen.symm.trans found
    rw [matched, green] at amiss
    simp at amiss

/-- Routing is conservative unless a threshold of zero lets an unrelated candidate through. -/
theorem route_conservative_iff (distinct : (openPrs.map OpenPr.number).Nodup) :
    Conservative change openPrs cfg ↔ ¬Unrelated change openPrs cfg := by
  constructor
  · intro conservative unrelated
    obtain ⟨p, reason, -, routes⟩ := unrelated.routes distinct
    obtain ⟨q, -, foremost, -, -, path, left, right⟩ := conservative.routed _ _ routes
    exact unrelated.apart q foremost.listed path left right
  · intro related
    have routed (pr : Nat) (reason : String)
        (routes : (route change openPrs cfg).decision = .routeToExisting pr reason) :
        ∃ p, p.number = pr ∧ Foremost change openPrs p ∧ p.baseSha = change.baseSha ∧
          p.headProofOk = true ∧ ∃ path ∈ change.changedFiles, path ∈ p.changedFiles := by
      rcases @decision_cases change openPrs cfg with
        ⟨-, other, fresh⟩ | ⟨best, other, found, ⟨matched, green, chosen⟩ | ⟨-, refused⟩⟩
      · rw [fresh] at routes
        cases routes
      · obtain ⟨p, foremost, rfl, t, known, reached⟩ := bestScore_foremost found
        rw [chosen] at routes
        cases routes
        have based : p.baseSha = change.baseSha := of_decide_eq_true matched
        refine ⟨p, rfl, foremost, based, green, ?_⟩
        by_contra none
        apply related
        exact unrelated_of_foremost foremost based green known reached
          fun path left right => none ⟨path, left, right⟩
      · rw [refused] at routes
        cases routes
    constructor
    · intro openPrs' same
      exact (route_perm distinct same.symm).symm
    · exact routed
    · intro pr reason refuses
      rcases @decision_cases change openPrs cfg with
        ⟨-, other, fresh⟩ | ⟨best, other, found, ⟨-, -, chosen⟩ | ⟨amiss, refused⟩⟩
      · rw [fresh] at refuses
        cases refuses
      · rw [chosen] at refuses
        cases refuses
      · obtain ⟨p, foremost, rfl, -⟩ := bestScore_foremost found
        rw [refused] at refuses
        cases refuses
        refine ⟨p, rfl, foremost, ?_⟩
        rcases amiss with base | proof
        · exact .inl (of_decide_eq_false base)
        · exact .inr proof
    · intro none pr reason routes
      obtain ⟨-, -, -, -, -, path, member, -⟩ := routed pr reason routes
      rw [none] at member
      cases member

end Decisions

section Demo

def readmeChange : ChangeSet := { changedFiles := ["README.md"], baseSha := "aaa", author := none }

def openDocs : OpenPr := { number := 7, changedFiles := ["README.md", "NOTES.md"], baseSha := "aaa", headProofOk := true }

def openEngine : OpenPr := { number := 3, changedFiles := ["engine.rs"], baseSha := "aaa", headProofOk := true }

theorem readmeChange_conservative : Conservative readmeChange [openDocs, openEngine] ⟨.finite (1 / 2)⟩ := by
  refine (route_conservative_iff (by decide)).mpr fun unrelated => ?_
  exact unrelated.apart openDocs (by decide) "README.md" (by decide) (by decide)

/-- With a threshold of zero, a change of no file is sent to a pull request it has nothing to do with. -/
theorem emptyChange_routed : ∃ (change : ChangeSet) (openPrs : List OpenPr) (cfg : OverlapConfig),
    (openPrs.map OpenPr.number).Nodup ∧ change.changedFiles = [] ∧
      ¬Conservative change openPrs cfg := by
  refine ⟨{ changedFiles := [], baseSha := "aaa", author := none }, [openEngine], ⟨.finite 0⟩,
    by decide, rfl, fun conservative => ?_⟩
  have routed : ∃ p reason, p ∈ [openEngine] ∧ (route { changedFiles := [], baseSha := "aaa", author := none }
      [openEngine] ⟨.finite 0⟩).decision = .routeToExisting p.number reason := by
    apply Unrelated.routes ⟨?_, ?_, ?_⟩ (by decide)
    · decide +kernel
    · intro q _ path none
      cases none
    · exact ⟨openEngine, List.mem_singleton_self _, rfl, rfl, fun q only => by
        rw [List.mem_singleton.mp only]⟩
  obtain ⟨p, reason, -, routes⟩ := routed
  exact conservative.empty rfl _ _ routes

end Demo

end Jeryu.Core
