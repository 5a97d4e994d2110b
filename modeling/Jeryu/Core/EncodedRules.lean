import Jeryu.Core.Runs
import Jeryu.Library.Relabel

/-!
Protection rules stored under percent-encoded branch names, and the repair that moves them to the
branches they mean.
-/

namespace Jeryu.Core

open KeyedMap HashMap Relabel Text

section Slashes

variable {c : Char}

theorem upper_bounds (upper : isAsciiUppercase c = true) : 65 ≤ c.toNat ∧ c.toNat < 91 := by
  simp only [isAsciiUppercase, Bool.and_eq_true, decide_eq_true_eq, Char.le_def] at upper
  have low : 65 ≤ c.toNat := by simpa using UInt32.le_iff_toNat_le.mp upper.1
  have high : c.toNat ≤ 90 := by simpa using UInt32.le_iff_toNat_le.mp upper.2
  omega

theorem lowercase_percent (same : toAsciiLowercaseChar c = '%') : c = '%' := by
  unfold toAsciiLowercaseChar at same
  split at same
  · next upper =>
    obtain ⟨low, high⟩ := upper_bounds upper
    have letters : ∀ n < 91, 65 ≤ n → Char.ofNat (n + 32) ≠ '%' := by decide
    exact absurd same (letters c.toNat high low)
  · exact same

theorem lowercase_two (same : toAsciiLowercaseChar c = '2') : c = '2' := by
  unfold toAsciiLowercaseChar at same
  split at same
  · next upper =>
    obtain ⟨low, high⟩ := upper_bounds upper
    have letters : ∀ n < 91, 65 ≤ n → Char.ofNat (n + 32) ≠ '2' := by decide
    exact absurd same (letters c.toNat high low)
  · exact same

theorem lowercase_f (same : toAsciiLowercaseChar c = 'f') : c = 'f' ∨ c = 'F' := by
  unfold toAsciiLowercaseChar at same
  split at same
  · next upper =>
    obtain ⟨low, high⟩ := upper_bounds upper
    have letters : ∀ n < 91, 65 ≤ n → Char.ofNat (n + 32) = 'f' → n = 70 := by decide
    have seventy : c.toNat = 'F'.toNat := letters c.toNat high low same
    exact .inr (Char.toNat_inj.mp seventy)
  · exact .inl same

/-- The text begins with an encoded slash. -/
def Encodes (text : List Char) : Prop :=
  ∃ c rest, text = '%' :: '2' :: c :: rest ∧ (c = 'f' ∨ c = 'F')

theorem encodes_of_starts {text : List Char}
    (starts : "%2f".toList.isPrefixOf (text.map toAsciiLowercaseChar) = true) : Encodes text := by
  obtain ⟨rest, same⟩ := List.isPrefixOf_iff_prefix.mp starts
  have chars : text.map toAsciiLowercaseChar = '%' :: '2' :: 'f' :: rest := same.symm
  obtain ⟨a, tail, rfl, percent, after⟩ := List.map_eq_cons_iff.mp chars
  obtain ⟨b, tail, rfl, two, after⟩ := List.map_eq_cons_iff.mp after
  obtain ⟨c, tail, rfl, f, -⟩ := List.map_eq_cons_iff.mp after
  rw [lowercase_percent percent, lowercase_two two]
  exact ⟨c, tail, rfl, lowercase_f f⟩

theorem decodeSlashChars_head (text : List Char) :
    (decodeSlashChars text).head? = text.head? ∨ (decodeSlashChars text).head? = some '/' := by
  induction text using decodeSlashChars.induct with
  | case1 c rest slash => exact .inr (by simp [decodeSlashChars, slash])
  | case2 c rest other => exact .inl (by simp [decodeSlashChars, other])
  | case3 c rest other => exact .inl (by simp [decodeSlashChars])
  | case4 => exact .inl rfl

theorem contains_step {text : List Char} (unencoded : ¬Encodes (c :: text))
    (rest : containsChars "%2f".toList (text.map toAsciiLowercaseChar) = false) :
    containsChars "%2f".toList ((c :: text).map toAsciiLowercaseChar) = false := by
  have starts : "%2f".toList.isPrefixOf ((c :: text).map toAsciiLowercaseChar) = false :=
    Bool.eq_false_iff.mpr fun starts => unencoded (encodes_of_starts starts)
  rw [List.map_cons] at starts ⊢
  rw [containsChars, starts, rest]
  rfl

/-- Nothing is left to decode. -/
theorem decodeSlashChars_clean (text : List Char) :
    containsChars "%2f".toList ((decodeSlashChars text).map toAsciiLowercaseChar) = false := by
  induction text using decodeSlashChars.induct with
  | case1 c rest slash ih =>
    rw [decodeSlashChars, if_pos slash]
    refine contains_step ?_ ih
    rintro ⟨d, tail, same, -⟩
    cases same
  | case2 c rest other ih =>
    rw [decodeSlashChars, if_neg other]
    refine contains_step ?_ ih
    rintro ⟨d, tail, same, isF⟩
    have two : decodeSlashChars ('2' :: c :: rest) = '2' :: decodeSlashChars (c :: rest) := by
      simp [decodeSlashChars]
    rw [two] at same
    have after : decodeSlashChars (c :: rest) = d :: tail := by simpa using same
    have first := decodeSlashChars_head (c :: rest)
    rw [after] at first
    simp only [List.head?_cons, Option.some.injEq] at first
    rcases first with rfl | rfl
    · exact other (by simpa using isF)
    · rcases isF with isF | isF <;> cases isF
  | case3 c rest other ih =>
    have kept : decodeSlashChars (c :: rest) = c :: decodeSlashChars rest := by
      rw [decodeSlashChars]
      exact other
    rw [kept]
    refine contains_step ?_ ih
    rintro ⟨d, tail, same, isF⟩
    obtain ⟨rfl, after⟩ := List.cons_eq_cons.mp same
    have first := decodeSlashChars_head rest
    rw [after] at first
    simp only [List.head?_cons] at first
    rcases first with two | slash
    · cases rest with
      | nil => cases two
      | cons b rest =>
        obtain rfl := Option.some.inj two
        cases rest with
        | nil => simp [decodeSlashChars] at after
        | cons e rest => exact other e rest rfl rfl
    · cases slash
  | case4 => rfl

theorem decodeSlashes_clean (branch : String) : hasEncodedSlash (decodeSlashes branch) = false := by
  unfold hasEncodedSlash decodeSlashes contains toAsciiLowercase
  simp only [String.toList_ofList]
  exact decodeSlashChars_clean branch.toList

end Slashes

section Plans

variable {s : State} {step : PlannedRekey} {plan : List PlannedRekey}

/-- What the git lookups answer, put beside a rule. -/
def planned (found : String → String → String → Bool)
    (entry : Scoped String × BranchProtectionRule) : PlannedRekey where
  key := entry.1
  seen := entry.2
  decoded := decodeSlashes entry.1.2.2
  encodedExists := found entry.1.1 entry.1.2.1 entry.1.2.2
  decodedExists := found entry.1.1 entry.1.2.1 (decodeSlashes entry.1.2.2)

theorem planRekeys_ok {branches : RepoBranches} {found : String → String → String → Bool}
    (answers : ∀ owner repo branch, branches.branchExists owner repo branch =
      .ok (found owner repo branch)) (entries : List (Scoped String × BranchProtectionRule)) :
    planRekeys branches entries = .ok (entries.map (planned found)) := by
  induction entries with
  | nil => rfl
  | cons entry rest ih =>
    unfold planRekeys
    dsimp only
    rw [answers, answers, ih]
    rfl

/-- The rules with an encoded name, in the order the table iterates. -/
def State.encodedRules (s : State) : List (Scoped String × BranchProtectionRule) :=
  s.branchProtections.pairs.filter fun (key, _) => hasEncodedSlash key.2.2

def State.repaired (s : State) (plan : List PlannedRekey) : State :=
  (plan.foldl rekeyStep ⟨s, ⟨[], [], []⟩, []⟩).state

/-- Whether the repair may touch the rule: it is the one seen, in a repository that is there and not
    archived, not the default branch's, and only the decoded name is a branch. -/
def State.repairs (s : State) (step : PlannedRekey) : Bool :=
  s.branchProtections.lookup step.key = some step.seen &&
    (s.repos.lookup (step.key.1, step.key.2.1)).any fun repository =>
      !repository.archived && repository.defaultBranch != step.key.2.2 && !step.encodedExists &&
        step.decodedExists

def PlannedRekey.renamed (step : PlannedRekey) : BranchProtectionRule :=
  { step.seen with branch := step.decoded }

def PlannedRekey.gated (step : PlannedRekey) : Bool := !step.seen.requiredStatusChecks.isEmpty

def PlannedRekey.move (step : PlannedRekey) : Move (Scoped String) BranchProtectionRule where
  source := step.key
  target := step.target
  moved := step.renamed
  pinned := step.gated

theorem decideRekey_repairs (repairs : s.repairs step = true) : decideRekey s step =
    if (s.branchProtections.lookup step.target).isNone then .rekey
    else if step.gated then .keep "duplicate requires status checks" else .remove := by
  unfold State.repairs at repairs
  simp only [Bool.and_eq_true, decide_eq_true_eq, Option.any_eq_true, bne_iff_ne,
    Bool.not_eq_true'] at repairs
  obtain ⟨seen, repository, live, ⟨⟨unarchived, ordinary⟩, unreal⟩, decoded⟩ := repairs
  unfold decideRekey
  rw [if_neg (by simp [seen]), live]
  simp [unarchived, ordinary, unreal, decoded, PlannedRekey.gated]

theorem decideRekey_keeps (kept : s.repairs step = false) :
    ∃ reason, decideRekey s step = .keep reason := by
  unfold decideRekey
  split
  · exact ⟨_, rfl⟩
  · next seen =>
    simp only [ne_eq, not_not] at seen
    cases live : s.repos.lookup (step.key.1, step.key.2.1) with
    | none => exact ⟨_, rfl⟩
    | some repository =>
      dsimp only
      split
      · exact ⟨_, rfl⟩
      · next unarchived =>
        split
        · exact ⟨_, rfl⟩
        · next ordinary =>
          split
          · exact ⟨_, rfl⟩
          · next unreal =>
            split
            · exact ⟨_, rfl⟩
            · next decoded => simp_all [State.repairs]

/-- The moves the repair makes, in the order of the plan. -/
def State.movesOf (s : State) (plan : List PlannedRekey) :
    List (Move (Scoped String) BranchProtectionRule) :=
  (plan.filter s.repairs).map PlannedRekey.move

theorem mem_movesOf {move : Move (Scoped String) BranchProtectionRule} :
    move ∈ s.movesOf plan ↔ ∃ step ∈ plan, s.repairs step = true ∧ step.move = move := by
  simp [State.movesOf, and_assoc]

/-- The rules after one step of the plan. -/
theorem rekeyStep_rules (progress : Rekeying) (step : PlannedRekey) :
    (rekeyStep progress step).state.repos = progress.state.repos ∧
      (rekeyStep progress step).state.branchProtections =
        match decideRekey progress.state step with
        | .keep _ => progress.state.branchProtections
        | .remove => progress.state.branchProtections.erase step.key
        | .rekey => (progress.state.branchProtections.erase step.key).insert step.target step.renamed := by
  obtain ⟨state, report, changes⟩ := progress
  unfold rekeyStep
  dsimp only
  cases decideRekey state step with
  | keep reason => exact ⟨rfl, rfl⟩
  | remove => exact ⟨rfl, rfl⟩
  | rekey => exact ⟨rfl, rfl⟩

theorem rekeyStep_lookup {progress : Rekeying} (repos : progress.state.repos = s.repos)
    (seen : progress.state.branchProtections.lookup step.key = s.branchProtections.lookup step.key) :
    (rekeyStep progress step).state.repos = s.repos ∧
      (fun key => (rekeyStep progress step).state.branchProtections.lookup key) =
        if s.repairs step then step.move.apply fun key => progress.state.branchProtections.lookup key
        else fun key => progress.state.branchProtections.lookup key := by
  have same : progress.state.repairs step = s.repairs step := by
    unfold State.repairs
    rw [seen, repos]
  obtain ⟨repos', rules⟩ := rekeyStep_rules progress step
  refine ⟨repos'.trans repos, ?_⟩
  rw [rules]
  cases repairs : s.repairs step with
  | false =>
    obtain ⟨reason, keeps⟩ := decideRekey_keeps (same.trans repairs)
    rw [keeps]
    rfl
  | true =>
    rw [decideRekey_repairs (same.trans repairs), if_pos rfl]
    funext key
    unfold Move.apply
    rw [show step.move.target = step.target from rfl]
    dsimp only
    cases (progress.state.branchProtections.lookup step.target).isNone with
    | true =>
      show ((progress.state.branchProtections.erase step.key).insert step.target
        step.renamed).lookup key = _
      rw [lookup_insert_if, lookup_erase_if]
      rfl
    | false => cases gated : step.gated <;> simp [lookup_erase_if, PlannedRekey.move, gated]

/-- A plan over different rules, none of which has the name another one is moved to. -/
structure PlanApart (plan : List PlannedRekey) : Prop where
  keys : (plan.map PlannedRekey.key).Nodup
  targets : ∀ a ∈ plan, ∀ b ∈ plan, a.key ≠ b.target

theorem PlanApart.moves (apart : PlanApart plan) : Apart (s.movesOf plan) where
  sources := by
    have sub : ((s.movesOf plan).map Move.source).Sublist (plan.map PlannedRekey.key) := by
      unfold State.movesOf
      rw [List.map_map]
      exact List.filter_sublist.map PlannedRekey.key
    exact sub.nodup apart.keys
  targets := by
    intro a here b there
    obtain ⟨step, member, -, rfl⟩ := mem_movesOf.mp here
    obtain ⟨other, member', -, rfl⟩ := mem_movesOf.mp there
    exact apart.targets step member other member'

theorem foldl_rekeyStep {progress : Rekeying} (apart : PlanApart plan)
    (repos : progress.state.repos = s.repos)
    (seen : ∀ step ∈ plan, progress.state.branchProtections.lookup step.key =
      s.branchProtections.lookup step.key) :
    (plan.foldl rekeyStep progress).state.repos = s.repos ∧
      (fun key => (plan.foldl rekeyStep progress).state.branchProtections.lookup key) =
        moveAll (fun key => progress.state.branchProtections.lookup key) (s.movesOf plan) := by
  induction plan generalizing progress with
  | nil => exact ⟨repos, rfl⟩
  | cons step plan ih =>
    obtain ⟨repos', lookups⟩ := rekeyStep_lookup repos (seen step List.mem_cons_self)
    have rest : PlanApart plan := ⟨(List.nodup_cons.mp apart.keys).2, fun a here b there =>
      apart.targets a (List.mem_cons_of_mem _ here) b (List.mem_cons_of_mem _ there)⟩
    have later : ∀ other ∈ plan, (rekeyStep progress step).state.branchProtections.lookup other.key =
        s.branchProtections.lookup other.key := by
      intro other member
      rw [congrFun lookups other.key, ← seen other (List.mem_cons_of_mem _ member)]
      split
      · have different : other.key ≠ step.move.source := fun same =>
          (List.nodup_cons.mp apart.keys).1 (List.mem_map.mpr ⟨other, member, same⟩)
        have elsewhere : step.move.target ≠ other.key := fun same =>
          apart.targets other (List.mem_cons_of_mem _ member) step List.mem_cons_self same.symm
        rw [apply_of_ne different, if_neg elsewhere, Option.or_none]
      · rfl
    obtain ⟨repos'', last⟩ := ih rest repos' later
    refine ⟨repos'', last.trans ?_⟩
    unfold State.movesOf
    rw [lookups, List.filter_cons]
    split
    · rfl
    · rfl

theorem repaired_lookup (apart : PlanApart plan) : (s.repaired plan).repos = s.repos ∧
    ∀ key, (s.repaired plan).branchProtections.lookup key =
      moveAll (fun key => s.branchProtections.lookup key) (s.movesOf plan) key := by
  obtain ⟨repos, rules⟩ := @foldl_rekeyStep s plan ⟨s, ⟨[], [], []⟩, []⟩ apart rfl fun _ _ => rfl
  exact ⟨repos, fun key => congrFun rules key⟩

theorem foldl_rekeyStep_unchanged {progress : Rekeying} :
    (plan.foldl rekeyStep progress).changes = [] →
      progress.changes = [] ∧ (plan.foldl rekeyStep progress).state = progress.state := by
  induction plan generalizing progress with
  | nil => exact fun none => ⟨none, rfl⟩
  | cons step plan ih =>
    intro none
    obtain ⟨kept, same⟩ := ih none
    obtain ⟨state, report, changes⟩ := progress
    rw [List.foldl_cons, same]
    unfold rekeyStep at kept ⊢
    dsimp only at kept ⊢
    cases decided : decideRekey state step with
    | keep reason =>
      rw [decided] at kept
      exact ⟨kept, rfl⟩
    | remove =>
      rw [decided] at kept
      simp at kept
    | rekey =>
      rw [decided] at kept
      simp at kept

/-- What the section under the write lock leaves. -/
theorem rekeyEncodedLocked_leaves (plan : List PlannedRekey) (core : ForgeCore) :
    (core.state.repaired plan = core.state ∧
        ∃ report, rekeyEncodedLocked plan core = .unchanged (report, [])) ∨
      ∃ answer, rekeyEncodedLocked plan core = .commit [] 0 (core.state.repaired plan) none answer := by
  unfold rekeyEncodedLocked
  dsimp only
  split
  · next unchanged =>
    exact .inl ⟨(foldl_rekeyStep_unchanged (List.isEmpty_iff.mp unchanged)).2, _, rfl⟩
  · exact .inr ⟨_, rfl⟩

end Plans

section Orders

variable {s : State} {found : String → String → String → Bool}
variable {order order' : List (Scoped String × BranchProtectionRule)}
variable {a b : Scoped String × BranchProtectionRule}

theorem mem_encodedRules : a ∈ s.encodedRules ↔
    s.branchProtections.lookup a.1 = some a.2 ∧ hasEncodedSlash a.1.2.2 = true := by
  obtain ⟨key, rule⟩ := a
  simp [State.encodedRules, mem_pairs]

theorem encodedRules_apart (perm : order.Perm s.encodedRules) :
    PlanApart (order.map (planned found)) where
  keys := by
    have keys : (s.branchProtections.pairs.map Prod.fst).Nodup := by
      have same : s.branchProtections.pairs.map Prod.fst = s.branchProtections.keys := by
        unfold pairs AList.keys List.keys
        rw [List.map_map]
        rfl
      rw [same]
      exact s.branchProtections.nodupKeys
    have sub : (s.encodedRules.map Prod.fst).Nodup := (List.filter_sublist.map Prod.fst).nodup keys
    have same : (order.map (planned found)).map PlannedRekey.key = order.map Prod.fst := by
      rw [List.map_map]
      rfl
    rw [same]
    exact ((perm.map Prod.fst).nodup_iff).mpr sub
  targets := by
    intro first here last there
    obtain ⟨entry, member, rfl⟩ := List.mem_map.mp here
    obtain ⟨other, -, rfl⟩ := List.mem_map.mp there
    intro same
    have encoded := (mem_encodedRules.mp (perm.mem_iff.mp member)).2
    have decoded : entry.1.2.2 = decodeSlashes other.1.2.2 :=
      (Prod.mk.inj (Prod.mk.inj (show entry.1 = _ from same)).2).2
    rw [decoded, decodeSlashes_clean] at encoded
    cases encoded

/-- The rule the repair leaves under a key, for one order of the table. -/
def State.ruleAfter (s : State) (found : String → String → String → Bool)
    (order : List (Scoped String × BranchProtectionRule)) (key : Scoped String) :
    Option BranchProtectionRule :=
  (s.repaired (order.map (planned found))).branchProtections.lookup key

/-- What the repair keeps to, whatever the order of the table. -/
structure RepairSound (s : State) (found : String → String → String → Bool) : Prop where
  /-- The rules it leaves are the same for every order. -/
  settled : ∀ order order', order.Perm s.encodedRules → order'.Perm s.encodedRules →
    ∀ key, s.ruleAfter found order key = s.ruleAfter found order' key
  /-- When several names stand for one branch without a rule and one of their rules asks for status
      checks, the branch gets a rule that does. -/
  gated : ∀ order, order.Perm s.encodedRules → ∀ a ∈ order, ∀ b ∈ order, a ≠ b →
    (planned found a).target = (planned found b).target →
    s.branchProtections.lookup (planned found a).target = none → a.2.requiredStatusChecks ≠ [] →
    ∃ rule, s.ruleAfter found order (planned found a).target = some rule ∧
      rule.requiredStatusChecks ≠ []
  /-- A second run changes no rule. -/
  again : ∀ order, order.Perm s.encodedRules →
    ∀ order', order'.Perm (s.repaired (order.map (planned found))).encodedRules →
      ∀ key, (s.repaired (order.map (planned found))).ruleAfter found order' key =
        s.ruleAfter found order key

/-- The names under which the rules of one branch without a rule are stored. -/
structure NamesSettled (s : State) (found : String → String → String → Bool) : Prop where
  /-- Two that the repair may touch have the same rule, and it asks for no status checks. -/
  alike : ∀ a ∈ s.encodedRules, ∀ b ∈ s.encodedRules, a ≠ b →
    (planned found a).target = (planned found b).target →
    s.branchProtections.lookup (planned found a).target = none →
    s.repairs (planned found a) = true → s.repairs (planned found b) = true →
    (planned found a).renamed = (planned found b).renamed ∧ a.2.requiredStatusChecks = []
  /-- If there are two and one asks for status checks, one that the repair may touch does. -/
  gated : ∀ a ∈ s.encodedRules, ∀ b ∈ s.encodedRules, a ≠ b →
    (planned found a).target = (planned found b).target →
    s.branchProtections.lookup (planned found a).target = none → a.2.requiredStatusChecks ≠ [] →
    ∃ c ∈ s.encodedRules, (planned found c).target = (planned found a).target ∧
      s.repairs (planned found c) = true ∧ c.2.requiredStatusChecks ≠ []

theorem ruleAfter_eq (perm : order.Perm s.encodedRules) (key : Scoped String) :
    s.ruleAfter found order key = moveAll (fun key => s.branchProtections.lookup key)
      (s.movesOf (order.map (planned found))) key :=
  (repaired_lookup (encodedRules_apart perm)).2 key

theorem gated_iff : (planned found a).move.pinned = false ↔ a.2.requiredStatusChecks = [] := by
  simp [PlannedRekey.move, PlannedRekey.gated, planned]

theorem mem_moves {move : Move (Scoped String) BranchProtectionRule} :
    move ∈ s.movesOf (order.map (planned found)) ↔
      ∃ entry ∈ order, s.repairs (planned found entry) = true ∧ (planned found entry).move = move := by
  rw [mem_movesOf]
  constructor
  · rintro ⟨step, member, repairs, same⟩
    obtain ⟨entry, here, rfl⟩ := List.mem_map.mp member
    exact ⟨entry, here, repairs, same⟩
  · rintro ⟨entry, here, repairs, same⟩
    exact ⟨_, List.mem_map_of_mem here, repairs, same⟩

theorem movesOf_perm (perm : order.Perm order') :
    (s.movesOf (order.map (planned found))).Perm (s.movesOf (order'.map (planned found))) :=
  ((perm.map _).filter _).map _

theorem target_decoded (found : String → String → String → Bool)
    (a : Scoped String × BranchProtectionRule) :
    hasEncodedSlash (planned found a).target.2.2 = false := decodeSlashes_clean a.1.2.2

/-- A name the repair moves no rule from. -/
theorem ruleAfter_decoded (perm : order.Perm s.encodedRules) {key : Scoped String}
    (decoded : hasEncodedSlash key.2.2 = false) : s.ruleAfter found order key =
      (s.branchProtections.lookup key).or
        ((claimant (s.movesOf (order.map (planned found))) key).map Move.moved) := by
  rw [ruleAfter_eq perm]
  refine moveAll_unmoved fun move member same => ?_
  obtain ⟨entry, here, -, rfl⟩ := mem_moves.mp member
  have encoded := (mem_encodedRules.mp (perm.mem_iff.mp here)).2
  have name : entry.1 = key := same
  rw [name, decoded] at encoded
  cases encoded

theorem NamesSettled.alike_moves (names : NamesSettled s found)
    (perm : order.Perm s.encodedRules) :
    ∀ a ∈ s.movesOf (order.map (planned found)), ∀ b ∈ s.movesOf (order.map (planned found)),
      a.target = b.target → s.branchProtections.lookup a.target = none → Alike a b := by
  intro first here last there same vacant
  obtain ⟨a, member, repairs, rfl⟩ := mem_moves.mp here
  obtain ⟨b, member', repairs', rfl⟩ := mem_moves.mp there
  by_cases one : a = b
  · exact .inl (congrArg (fun entry => (planned found entry).move) one)
  · obtain ⟨rules, free⟩ := names.alike a (perm.mem_iff.mp member) b (perm.mem_iff.mp member') one same
      vacant repairs repairs'
    exact .inr ⟨rules, gated_iff.mpr free⟩

/-- A second run finds nothing it may change. -/
theorem repair_again (perm : order.Perm s.encodedRules)
    (perm' : order'.Perm (s.repaired (order.map (planned found))).encodedRules) (key : Scoped String) :
    (s.repaired (order.map (planned found))).ruleAfter found order' key =
      s.ruleAfter found order key := by
  have apart : Apart (s.movesOf (order.map (planned found))) := (encodedRules_apart perm).moves
  obtain ⟨repos, -⟩ := @repaired_lookup s _ (encodedRules_apart perm)
  rw [ruleAfter_eq perm']
  refine congrFun (moveAll_idle fun move member => ?_) key
  obtain ⟨entry, here, repairs, rfl⟩ := mem_moves.mp member
  obtain ⟨stored, encoded⟩ := mem_encodedRules.mp (perm'.mem_iff.mp here)
  -- The rule was there before, and the repair might have touched it then.
  have before : s.branchProtections.lookup entry.1 = some entry.2 →
      s.repairs (planned found entry) = true := by
    intro old
    unfold State.repairs at repairs ⊢
    rw [repos] at repairs
    simp only [Bool.and_eq_true] at repairs ⊢
    exact ⟨decide_eq_true old, repairs.2⟩
  by_cases moved : ∃ move ∈ s.movesOf (order.map (planned found)), move.source = entry.1
  · obtain ⟨move, among, source⟩ := moved
    have result := @moveAll_moved _ _ _ _ _ (fun key => s.branchProtections.lookup key) apart among
    rw [source, ← ruleAfter_eq perm] at result
    have stays : s.ruleAfter found order entry.1 = some entry.2 := stored
    rw [stays] at result
    rcases result with ⟨gone, -⟩ | ⟨kept, -⟩
    · cases gone
    · cases pinned : move.pinned with
      | false =>
        rw [pinned] at kept
        cases kept
      | true =>
        rw [pinned, if_pos rfl] at kept
        obtain ⟨old, member', repairs', rfl⟩ := mem_moves.mp among
        have same : old = entry := by
          have known := (mem_encodedRules.mp (perm.mem_iff.mp member')).1
          have name : old.1 = entry.1 := source
          rw [name] at known
          exact Prod.ext name (Option.some.inj (known.symm.trans kept.symm))
        subst same
        refine ⟨?_, pinned⟩
        have taken := @ruleAfter_decoded s found order perm _ (target_decoded found old)
        unfold State.ruleAfter at taken
        show (s.repaired (order.map (planned found))).branchProtections.lookup
          (planned found old).target ≠ none
        rw [taken]
        cases claims : claimant (s.movesOf (order.map (planned found))) (planned found old).target with
        | some winner => simp
        | none =>
          have missed := List.find?_eq_none.mp claims _ among
          simp [PlannedRekey.move] at missed
  · have untouched : s.ruleAfter found order entry.1 = s.branchProtections.lookup entry.1 := by
      rw [ruleAfter_eq perm, moveAll_unmoved fun move member same => moved ⟨move, member, same⟩]
      cases claims : claimant (s.movesOf (order.map (planned found))) entry.1 with
      | none => simp
      | some winner =>
        obtain ⟨member, target⟩ := claimant_mem claims
        obtain ⟨other, -, -, rfl⟩ := mem_moves.mp member
        have decoded := decodeSlashes_clean other.1.2.2
        have name : (planned found other).target = entry.1 := target
        rw [show decodeSlashes other.1.2.2 = entry.1.2.2 from
          (Prod.mk.inj (Prod.mk.inj name).2).2, encoded] at decoded
        cases decoded
    have old : s.branchProtections.lookup entry.1 = some entry.2 := untouched.symm.trans stored
    have listed : entry ∈ order := perm.mem_iff.mpr (mem_encodedRules.mpr ⟨old, encoded⟩)
    exact absurd ⟨_, mem_moves.mpr ⟨entry, listed, before old, rfl⟩, rfl⟩ moved

theorem exists_first (member : a ∈ s.encodedRules) :
    ∃ rest, (a :: rest).Perm s.encodedRules := by
  obtain ⟨before, after, split⟩ := List.append_of_mem member
  rw [split]
  exact ⟨before ++ after, List.perm_middle.symm⟩

/-- The first rule in line gets the branch. -/
theorem first_gets {rest : List (Scoped String × BranchProtectionRule)}
    (perm : (a :: rest).Perm s.encodedRules) (repairs : s.repairs (planned found a) = true)
    (vacant : s.branchProtections.lookup (planned found a).target = none) :
    claimant (s.movesOf ((a :: rest).map (planned found))) (planned found a).target =
        some (planned found a).move ∧
      s.ruleAfter found (a :: rest) (planned found a).target = some (planned found a).renamed := by
  have first : claimant (s.movesOf ((a :: rest).map (planned found))) (planned found a).target =
      some (planned found a).move := by
    unfold State.movesOf claimant
    rw [List.map_cons, List.filter_cons_of_pos repairs, List.map_cons, List.find?_cons]
    simp [PlannedRekey.move]
  refine ⟨first, ?_⟩
  rw [ruleAfter_decoded perm (target_decoded found a), vacant, first]
  rfl

theorem NamesSettled.sound (names : NamesSettled s found) : RepairSound s found where
  settled order order' perm perm' key := by
    rw [ruleAfter_eq perm, ruleAfter_eq perm']
    exact congrFun (moveAll_perm (encodedRules_apart perm').moves
      (movesOf_perm (perm.trans perm'.symm)) (names.alike_moves perm')) key
  gated order perm a here b there different same vacant asks := by
    obtain ⟨c, member, target, repairs, gated⟩ := names.gated a (perm.mem_iff.mp here) b
      (perm.mem_iff.mp there) different same vacant asks
    have moves : (planned found c).move ∈ s.movesOf (order.map (planned found)) :=
      mem_moves.mpr ⟨c, perm.mem_iff.mpr member, repairs, rfl⟩
    rw [ruleAfter_decoded perm (target_decoded found a), vacant, ← target]
    cases claims : claimant (s.movesOf (order.map (planned found))) (planned found c).target with
    | none =>
      have missed := List.find?_eq_none.mp claims _ moves
      simp [PlannedRekey.move] at missed
    | some winner =>
      obtain ⟨won, aimed⟩ := claimant_mem claims
      refine ⟨winner.moved, rfl, ?_⟩
      have unruled : s.branchProtections.lookup (planned found c).target = none := by rw [target, vacant]
      rcases names.alike_moves perm _ moves winner won aimed.symm unruled with rfl | ⟨-, free⟩
      · exact gated
      · exact absurd (gated_iff.mp free) gated
  again order perm order' perm' key := repair_again perm perm' key

theorem RepairSound.names (sound : RepairSound s found) : NamesSettled s found where
  alike a here b there different same vacant repairs repairs' := by
    obtain ⟨rest, perm⟩ := exists_first here
    obtain ⟨rest', perm'⟩ := exists_first there
    obtain ⟨first, got⟩ := first_gets perm repairs vacant
    obtain ⟨first', got'⟩ := first_gets perm' repairs' (same ▸ vacant)
    have moves : (planned found a).move ∈ s.movesOf ((a :: rest).map (planned found)) :=
      mem_moves.mpr ⟨a, List.mem_cons_self, repairs, rfl⟩
    have moves' : (planned found a).move ∈ s.movesOf ((b :: rest').map (planned found)) :=
      mem_moves.mpr ⟨a, perm'.mem_iff.mpr here, repairs, rfl⟩
    rw [← same] at first'
    have rules := sound.settled _ _ perm perm' (planned found a).target
    have sources := sound.settled _ _ perm perm' a.1
    constructor
    · rw [got, same, got'] at rules
      exact Option.some.inj rules
    · refine (@gated_iff found a).mp ?_
      have stored : s.branchProtections.lookup a.1 = some a.2 := (mem_encodedRules.mp here).1
      rcases @moveAll_moved _ _ _ _ _ (fun key => s.branchProtections.lookup key)
        (encodedRules_apart perm).moves moves with ⟨gone, -⟩ | ⟨-, lost⟩
      · rcases @moveAll_moved _ _ _ _ _ (fun key => s.branchProtections.lookup key)
          (encodedRules_apart perm').moves moves' with ⟨-, -, won⟩ | ⟨kept, -⟩
        · have names : (planned found a).move = (planned found b).move :=
            Option.some.inj (won.symm.trans first')
          have keys : a.1 = b.1 := congrArg Move.source names
          have stored' := (mem_encodedRules.mp there).1
          rw [← keys] at stored'
          exact absurd (Prod.ext keys (Option.some.inj (stored.symm.trans stored'))) different
        · rw [ruleAfter_eq perm, ruleAfter_eq perm'] at sources
          have none : (if (planned found a).move.pinned then s.branchProtections.lookup a.1
              else none) = none := kept.symm.trans (sources.symm.trans gone)
          cases pinned : (planned found a).move.pinned with
          | false => rfl
          | true =>
            rw [pinned, if_pos rfl, stored] at none
            cases none
      · exact absurd ⟨vacant, first⟩ lost
  gated a here b there different same vacant asks := by
    obtain ⟨rule, found', gated⟩ := sound.gated _ (List.Perm.refl _) a here b there different same vacant
      asks
    rw [ruleAfter_decoded (List.Perm.refl _) (target_decoded found _), vacant, Option.none_or,
      Option.map_eq_some_iff] at found'
    obtain ⟨move, claims, rfl⟩ := found'
    obtain ⟨member, target⟩ := claimant_mem claims
    obtain ⟨c, here', repairs, rfl⟩ := mem_moves.mp member
    exact ⟨c, here', target, repairs, gated⟩

theorem repair_sound_iff (s : State) (found : String → String → String → Bool) :
    RepairSound s found ↔ NamesSettled s found :=
  ⟨fun sound => sound.names, fun names => names.sound⟩

end Orders

section Demo

/-- Two spellings of one branch; only the rule of the second asks for a status check. -/
def twoSpellings : State :=
  (ForgeCore.inMemory.played [.alone .newDemo,
    .alone (.setBranchProtection "acme" "demo" "release%2Fv1" .default),
    .alone (.setBranchProtection "acme" "demo" "release%2fv1"
      { SetBranchProtectionRequest.default with requiredStatusChecks := ["ci"] })]).shared.state

def onlyDecoded (_ _ branch : String) : Bool := branch == "release/v1"

/-- In one order the branch gets the rule without the check, in the other the rule with it. -/
theorem repair_depends_on_order : ¬RepairSound twoSpellings onlyDecoded := by
  intro sound
  have one : (twoSpellings.ruleAfter onlyDecoded twoSpellings.encodedRules
      ("acme", "demo", "release/v1")).map BranchProtectionRule.requiredStatusChecks = some ["ci"] := by
    decide +kernel
  have other : (twoSpellings.ruleAfter onlyDecoded twoSpellings.encodedRules.reverse
      ("acme", "demo", "release/v1")).map BranchProtectionRule.requiredStatusChecks = some [] := by
    decide +kernel
  rw [sound.settled _ _ (List.Perm.refl _) (List.reverse_perm _), other] at one
  cases one

end Demo

end Jeryu.Core
